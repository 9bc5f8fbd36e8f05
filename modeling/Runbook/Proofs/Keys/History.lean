import Runbook.Proofs.Wallet.Keystore

/-!
This module contains where the open keys of a store come from: each was decrypted from the keyfile
that its address has been registered with ever since, whatever became of the keyfiles meanwhile.
-/

namespace Runbook

namespace Keystore

variable {files : Files} {s : Keystore} {a b : Address} {path path' : Path} {password : String}
  {key : PrivateKey}

/--
The address is registered with the keyfile, however the path to it is written.
-/
def Registers (s : Keystore) (a : Address) (path : Path) : Prop :=
  (s.path? a).any (samePath path) = true

instance (s : Keystore) (a : Address) (path : Path) : Decidable (s.Registers a path) :=
  inferInstanceAs (Decidable (_ = true))

theorem registers_iff
    : s.Registers a path ↔ ∃ path', s.path? a = some path' ∧ path.names = path'.names := by
  unfold Registers samePath
  rw [Option.any_eq_true]
  exact exists_congr fun path' => and_congr_right fun _ => beq_iff_eq

theorem registers_of_path? (h : s.path? a = some path) : s.Registers a path :=
  registers_iff.mpr ⟨path, h, rfl⟩

theorem lookup_remove {α : Type} (entries : List (Address × α)) (a : Address)
    : (remove entries a).lookup a = none := by
  rw [List.lookup_eq_none_iff]
  intro e he
  have hne := (List.mem_filter.mp he).2
  rwa [bne_comm] at hne

section Steps

/-!
What the operations make of the keyfile and the key of one address.
-/

theorem path?_register (s : Keystore) (a b : Address) (path : Path)
    : (s.register b path).path? a = if b = a then some path else s.path? a := by
  unfold register path?
  dsimp only
  by_cases hb : b = a
  . subst hb
    rw [if_pos rfl, List.lookup_cons_self]
  . have hab : (a == b) = false := by simpa using Ne.symm hb
    rw [if_neg hb, List.lookup_cons, hab]
    exact lookup_remove_of_ne s.paths (Ne.symm hb)

theorem key?_register (s : Keystore) (a : Address) (path : Path)
    : (s.register a path).key? a = if s.Registers a path then s.key? a else none := by
  by_cases h : s.Registers a path
  . have hkeys : (s.register a path).keys = s.keys := if_pos h
    rw [if_pos h, key?, hkeys, key?]
  . have hkeys : (s.register a path).keys = remove s.keys a := if_neg h
    rw [if_neg h, key?, hkeys]
    exact lookup_remove s.keys a

theorem unregister_of_registers (h : s.Registers a path)
    : s.unregister a path = { paths := remove s.paths a, keys := remove s.keys a } :=
  if_pos h

theorem unregister_of_not_registers (h : ¬ s.Registers a path) : s.unregister a path = s :=
  if_neg h

theorem view_unregister_of_ne (s : Keystore) (path : Path) (hne : a ≠ b)
    : (s.unregister b path).path? a = s.path? a ∧ (s.unregister b path).key? a = s.key? a := by
  by_cases h : s.Registers b path
  . rw [unregister_of_registers h]
    exact ⟨lookup_remove_of_ne s.paths hne, lookup_remove_of_ne s.keys hne⟩
  . rw [unregister_of_not_registers h]
    exact ⟨rfl, rfl⟩

theorem path?_unlock (files : Files) (s : Keystore) (a b : Address) (password : String)
    : (s.unlock files b password).2.path? a = s.path? a := by
  unfold unlock
  repeat' split
  all_goals rfl

theorem key?_answer (files : Files) (s : Keystore) (a : Address) (password : String)
    : (s.unlock files a password).1.key?
        =
      (s.key? a).or ((s.path? a).bind fun path => Keyfile.open? files path password) := by
  unfold unlock
  cases hkey : s.key? a with
  | some key => rfl
  | none =>
    cases hpath : s.path? a with
    | none => rfl
    | some path =>
      dsimp only
      cases hopen : Keyfile.open? files path password with
      | none =>
        rw [Option.none_or, Option.bind_some, hopen]
        rfl
      | some key =>
        rw [Option.none_or, Option.bind_some, hopen]
        rfl

theorem key?_unlock (files : Files) (s : Keystore) (a : Address) (password : String)
    : (s.unlock files a password).2.key? a = (s.unlock files a password).1.key? := by
  unfold unlock
  cases hkey : s.key? a with
  | some key => exact hkey
  | none =>
    cases hpath : s.path? a with
    | none => exact hkey
    | some path =>
      dsimp only
      cases hopen : Keyfile.open? files path password with
      | none => exact hkey
      | some key => exact List.lookup_cons_self

theorem unlock_of_key?_eq_none (h : (s.unlock files a password).1.key? = none)
    : (s.unlock files a password).2 = s := by
  rw [key?_answer, Option.or_eq_none_iff, Option.bind_eq_none_iff] at h
  obtain ⟨hkey, hopen⟩ := h
  unfold unlock
  rw [hkey]
  cases hpath : s.path? a with
  | none => rfl
  | some path =>
    dsimp only
    rw [hopen path hpath]

end Steps

inductive Act where
  | register (a : Address) (path : Path)
  | unregister (a : Address) (path : Path)
  | unlock (a : Address) (password : String)
  /-- Keyfiles are changed, added or deleted. -/
  | change (files : Files)

def filesAfter (files : Files) : List Act → Files
  | [] => files
  | .change files' :: _ => files'
  | _ :: past => filesAfter files past

def after (files : Files) : List Act → Keystore
  | [] => {}
  | .register a path :: past => (after files past).register a path
  | .unregister a path :: past => (after files past).unregister a path
  | .unlock a password :: past =>
    ((after files past).unlock (filesAfter files past) a password).2
  | .change _ :: past => after files past

def answer (files : Files) (past : List Act) (a : Address) (password : String) : Unlock :=
  ((after files past).unlock (filesAfter files past) a password).1

/--
No key is open for the address behind the acts, and its keyfile opens to this one.
-/
structure Decrypts (files : Files) (past : List Act) (a : Address) (path : Path) (password : String)
    (key : PrivateKey) : Prop where
  closed : (after files past).key? a = none
  registered : (after files past).path? a = some path
  opens : Keyfile.open? (filesAfter files past) path password = some key

variable {past earlier : List Act} {act : Act}

theorem key?_cases (h : (after files (act :: past)).key? a = some key)
    : ((after files past).key? a = some key ∧
        ∀ path, (after files past).Registers a path → (after files (act :: past)).Registers a path) ∨
      ∃ path password, act = .unlock a password ∧ Decrypts files past a path password key := by
  -- Only an unlocking opens a key. The other acts leave the open ones, or give up some.
  cases act with
  | register b path =>
    by_cases hb : b = a
    . subst hb
      rw [after, key?_register] at h
      split at h
      . next hregisters =>
        refine .inl ⟨h, fun path' h' => ?_⟩
        obtain ⟨old, hold, hnames⟩ := registers_iff.mp hregisters
        obtain ⟨old', hold', hnames'⟩ := registers_iff.mp h'
        cases hold.symm.trans hold'
        rw [after, registers_iff, path?_register, if_pos rfl]
        exact ⟨path, rfl, hnames'.trans hnames.symm⟩
      . cases h
    . rw [after, key?_register_of_ne (Ne.symm hb)] at h
      refine .inl ⟨h, fun path' h' => ?_⟩
      rw [registers_iff] at h' ⊢
      rwa [after, path?_register, if_neg hb]
  | unregister b path =>
    rw [after] at h ⊢
    by_cases hregisters : (after files past).Registers b path
    . by_cases hb : a = b
      . rw [hb, unregister_of_registers hregisters] at h
        cases (lookup_remove (after files past).keys b).symm.trans h
      . obtain ⟨hpath, hkey⟩ := view_unregister_of_ne (after files past) path hb
        refine .inl ⟨hkey.symm.trans h, fun path' h' => ?_⟩
        rw [registers_iff] at h' ⊢
        rwa [hpath]
    . rw [unregister_of_not_registers hregisters] at h ⊢
      exact .inl ⟨h, fun _ h' => h'⟩
  | unlock b password =>
    have hregisters (path : Path) (h' : (after files past).Registers a path)
        : (after files (.unlock b password :: past)).Registers a path := by
      rw [registers_iff] at h' ⊢
      rwa [after, path?_unlock]
    by_cases hb : a = b
    . subst hb
      rw [after, key?_unlock, key?_answer] at h
      cases hkey : (after files past).key? a with
      | some key' =>
        rw [hkey, Option.some_or] at h
        exact .inl ⟨h, hregisters⟩
      | none =>
        rw [hkey, Option.none_or, Option.bind_eq_some_iff] at h
        obtain ⟨path, hpath, hopen⟩ := h
        exact .inr ⟨path, password, rfl, hkey, hpath, hopen⟩
    . rw [after, key?_unlock_of_ne hb] at h
      exact .inl ⟨h, hregisters⟩
  | change files' => exact .inl ⟨h, fun _ h' => h'⟩

theorem exists_decrypts (h : (after files past).key? a = some key)
    : ∃ path password later earlier,
        past = later ++ .unlock a password :: earlier ∧
        Decrypts files earlier a path password key ∧
        ∀ mid, earlier <:+ mid → mid <:+ past → (after files mid).Registers a path := by
  induction past with
  | nil => cases h
  | cons act past ih =>
    rcases key?_cases h with ⟨hkey, hregisters⟩ | ⟨path, password, rfl, hdecrypts⟩
    . obtain ⟨path, password, later, earlier, hpast, hdecrypts, hstays⟩ := ih hkey
      refine ⟨path, password, act :: later, earlier, congrArg (act :: ·) hpast, hdecrypts, ?_⟩
      intro mid hearlier hmid
      rcases List.suffix_cons_iff.mp hmid with rfl | hmid
      . have hsuffix : earlier <:+ past := by
          rw [hpast]
          exact (List.suffix_cons _ _).trans (List.suffix_append _ _)
        exact hregisters path (hstays past hsuffix (List.suffix_refl _))
      . exact hstays mid hearlier hmid
    . refine ⟨path, password, [], past, rfl, hdecrypts, ?_⟩
      have hregistered := registers_of_path? hdecrypts.registered
      intro mid hearlier hmid
      rcases List.suffix_cons_iff.mp hmid with rfl | hmid
      . rw [registers_iff] at hregistered ⊢
        rwa [after, path?_unlock]
      . rwa [hmid.eq_of_length_le hearlier.length_le]

/--
However the store is used and the keyfiles change, a key that is handed out has come out of the
keyfile that the address is registered with: in this call or in an earlier one for the address, and
with the same keyfile registered from then on. A call that hands out no key changes nothing, and
neither does giving up a keyfile that is not the registered one.
-/
theorem answer_origin (files : Files) (past : List Act) (a : Address) (password : String)
    : (∀ key, (answer files past a password).key? = some key →
        ∃ path password' later earlier,
          (after files past).Registers a path ∧
          Act.unlock a password :: past = later ++ .unlock a password' :: earlier ∧
          Decrypts files earlier a path password' key ∧
          ∀ mid, earlier <:+ mid → mid <:+ past → (after files mid).Registers a path) ∧
      ((answer files past a password).key? = none →
        after files (.unlock a password :: past) = after files past) ∧
      ∀ path, ¬ (after files past).Registers a path →
        after files (.unregister a path :: past) = after files past := by
  refine ⟨?_, unlock_of_key?_eq_none, fun path => unregister_of_not_registers⟩
  intro key hanswer
  have hkey : (after files (.unlock a password :: past)).key? a = some key := by
    rw [after, key?_unlock]
    exact hanswer
  obtain ⟨path, password', later, earlier, hpast, hdecrypts, hstays⟩ := exists_decrypts hkey
  have hregistered : (after files past).Registers a path := by
    have hnow := hstays _ ?_ (List.suffix_refl _)
    . rw [registers_iff, after, path?_unlock] at hnow
      exact registers_iff.mpr hnow
    . rw [hpast]
      exact (List.suffix_cons _ _).trans (List.suffix_append _ _)
  refine ⟨path, password', later, earlier, hregistered, hpast, hdecrypts, ?_⟩
  intro mid hearlier hmid
  exact hstays mid hearlier (hmid.trans (List.suffix_cons _ _))

end Keystore

end Runbook
