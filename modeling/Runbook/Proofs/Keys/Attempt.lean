import Runbook.Proofs.Keys.History
import Runbook.Proofs.Keys.Sealed

/-!
This module contains which passwords get a key out of a store: once an attempt has opened the
keyfile that an address is registered with, every password does.
-/

namespace Runbook

namespace Keystore

/--
A call for a key, with the keyfile that was registered then.
-/
structure Attempt where
  path : Path
  password : String

def Attempt.key? (t : Attempt) (files : Files) : Option PrivateKey :=
  Keyfile.open? files t.path t.password

/--
The calls for the key of `a` since its keyfile was registered, the newest first.
-/
def attempts (files : Files) (a : Address) : List Act → List Attempt
  | [] => []
  | .register b path :: past =>
    if b = a ∧ ¬ (after files past).Registers a path then [] else attempts files a past
  | .unregister b path :: past =>
    if b = a ∧ (after files past).Registers a path then [] else attempts files a past
  | .unlock b password :: past =>
    if b = a then
      ((after files past).path? a).toList.map (Attempt.mk · password) ++ attempts files a past
    else attempts files a past
  | .change _ :: past => attempts files a past

def Unchanged (past : List Act) : Prop :=
  ∀ files, Act.change files ∉ past

variable {files : Files} {past : List Act} {act : Act} {a : Address}

theorem Unchanged.tail (h : Unchanged (act :: past)) : Unchanged past :=
  fun files hmem => h files (List.mem_cons_of_mem _ hmem)

theorem filesAfter_of_unchanged (h : Unchanged past) : filesAfter files past = files := by
  induction past with
  | nil => rfl
  | cons act past ih =>
    cases act with
    | change files' => exact absurd (List.mem_cons_self ..) (h files')
    | register b path => exact ih h.tail
    | unregister b path => exact ih h.tail
    | unlock b password => exact ih h.tail

theorem registers_of_mem_attempts {t : Attempt} (h : t ∈ attempts files a past)
    : (after files past).Registers a t.path := by
  -- Attempts are dropped with the keyfile they were at, and are added at the registered one.
  induction past with
  | nil => cases h
  | cons act past ih =>
    cases act with
    | register b path =>
      rw [attempts] at h
      split at h
      . cases h
      . next hsame =>
        have hold := registers_iff.mp (ih h)
        rw [after, registers_iff, path?_register]
        split
        . next hb =>
          have hregisters : (after files past).Registers a path := by
            by_contra hnot
            exact hsame ⟨hb, hnot⟩
          obtain ⟨old, hpath, hnames⟩ := registers_iff.mp hregisters
          obtain ⟨old', hpath', hnames'⟩ := hold
          cases hpath.symm.trans hpath'
          exact ⟨path, rfl, hnames'.trans hnames.symm⟩
        . exact hold
    | unregister b path =>
      rw [attempts] at h
      split at h
      . cases h
      . next hsame =>
        have hold := ih h
        rw [after]
        by_cases hregisters : (after files past).Registers b path
        . have hb : a ≠ b := fun heq => hsame ⟨heq.symm, heq ▸ hregisters⟩
          rw [registers_iff] at hold ⊢
          rwa [(view_unregister_of_ne _ path hb).1]
        . rwa [unregister_of_not_registers hregisters]
    | unlock b password =>
      rw [registers_iff, after, path?_unlock, ← registers_iff]
      rw [attempts] at h
      split at h
      . rcases List.mem_append.mp h with hnew | hold
        . obtain ⟨path, hpath, rfl⟩ := List.mem_map.mp hnew
          exact registers_of_path? (Option.mem_toList.mp hpath)
        . exact ih hold
      . exact ih h
    | change files' => exact ih h

theorem key?_after (h : Unchanged past)
    : (after files past).key? a = (attempts files a past).reverse.findSome? (·.key? files) := by
  -- Both sides forget the key with its keyfile, and only an unlocking adds to them.
  induction past with
  | nil => rfl
  | cons act past ih =>
    have ih := ih h.tail
    cases act with
    | register b path =>
      rw [after, attempts]
      by_cases hb : b = a
      . subst hb
        rw [key?_register]
        by_cases hregisters : (after files past).Registers b path
        . rw [if_pos hregisters, if_neg fun hnot => hnot.2 hregisters, ih]
        . rw [if_neg hregisters, if_pos ⟨rfl, hregisters⟩]
          rfl
      . rw [key?_register_of_ne (Ne.symm hb), if_neg fun hnot => hb hnot.1, ih]
    | unregister b path =>
      rw [after, attempts]
      by_cases hregisters : (after files past).Registers b path
      . by_cases hb : b = a
        . subst hb
          rw [unregister_of_registers hregisters, if_pos ⟨rfl, hregisters⟩]
          exact lookup_remove ..
        . rw [(view_unregister_of_ne _ path (Ne.symm hb)).2, if_neg fun hnot => hb hnot.1, ih]
      . rw [unregister_of_not_registers hregisters, if_neg, ih]
        rintro ⟨rfl, hnot⟩
        exact hregisters hnot
    | unlock b password =>
      rw [after, attempts]
      by_cases hb : b = a
      . subst hb
        rw [key?_unlock, key?_answer, filesAfter_of_unchanged h.tail, ih, if_pos rfl,
          List.reverse_append, List.findSome?_append]
        cases (after files past).path? b with
        | none => rfl
        | some path =>
          congr 1
          cases hopen : Keyfile.open? files path password <;>
            simp [Attempt.key?, hopen]
      . rw [key?_unlock_of_ne (Ne.symm hb), if_neg hb, ih]
    | change files' => exact ih

/--
While the keyfiles stay as they are, a call hands out the key of the oldest attempt that opened the
registered keyfile. So a password gets a key just if the keyfile opens under it, or if it has opened
before to any other one.
-/
theorem answer_attempts (h : Unchanged past) (a : Address) (password : String)
    : (answer files past a password).key?
        = (attempts files a (.unlock a password :: past)).reverse.findSome? (·.key? files) ∧
      ((answer files past a password).key?.isSome = true ↔
        ∃ path, (after files past).path? a = some path ∧
          ((Keyfile.open? files path password).isSome = true ∨
            ∃ t ∈ attempts files a past, (t.key? files).isSome = true)) ∧
      ∀ t ∈ attempts files a past, (after files past).Registers a t.path := by
  refine ⟨?_, ?_, fun t => registers_of_mem_attempts⟩
  . have hunlock : Unchanged (.unlock a password :: past) := by
      intro files' hmem
      rcases List.mem_cons.mp hmem with heq | hmem
      . cases heq
      . exact h files' hmem
    rw [← key?_after hunlock, after, key?_unlock]
    rfl
  . have hopen : ((after files past).key? a).isSome = true ↔
        ∃ t ∈ attempts files a past, (t.key? files).isSome = true := by
      rw [key?_after h, List.findSome?_isSome_iff]
      simp only [List.mem_reverse]
    rw [answer, key?_answer, filesAfter_of_unchanged h, Option.isSome_or, Bool.or_eq_true, hopen,
      Option.isSome_bind, Option.any_eq_true]
    refine ⟨?_, ?_⟩
    . rintro (⟨t, ht, hkey⟩ | ⟨path, hpath, hkey⟩)
      . obtain ⟨path, hpath, _⟩ := registers_iff.mp (registers_of_mem_attempts ht)
        exact ⟨path, hpath, .inr ⟨t, ht, hkey⟩⟩
      . exact ⟨path, hpath, .inl hkey⟩
    . rintro ⟨path, hpath, hkey | hattempt⟩
      . exact .inr ⟨path, hpath, hkey⟩
      . exact .inl hattempt

def minerKey : PrivateKey where
  scalar := 2
  scalar_pos := by decide
  scalar_lt := by decide

def minerPath : Path :=
  ⟨"miner.json"⟩

def minerFiles : Files where
  contents := [(["miner.json"], (Keyfile.ofKey minerKey "secret").write)]

theorem open?_miner : Keyfile.open? minerFiles minerPath "secret" = some minerKey := by
  have hplace : minerFiles.locate? minerPath = some ["miner.json"] := by decide +kernel
  apply Keyfile.open?_ofKey
  unfold Files.read?
  rw [hplace]
  rfl

theorem answer_miner
    : Unchanged [.unlock minerKey.address "secret", .register minerKey.address minerPath] ∧
      ∀ password,
        (answer minerFiles
            [.unlock minerKey.address "secret", .register minerKey.address minerPath]
            minerKey.address password).key?
          = some minerKey := by
  have hunchanged
      : Unchanged [.unlock minerKey.address "secret", .register minerKey.address minerPath] := by
    simp [Unchanged]
  refine ⟨hunchanged, fun password => ?_⟩
  have hattempts : attempts minerFiles minerKey.address
      [.unlock minerKey.address password, .unlock minerKey.address "secret",
        .register minerKey.address minerPath]
      = [⟨minerPath, password⟩, ⟨minerPath, "secret"⟩] := by
    have hregister : (after minerFiles [.register minerKey.address minerPath]).path?
        minerKey.address = some minerPath := by
      rw [after, path?_register, if_pos rfl]
    have hunlock : (after minerFiles [.unlock minerKey.address "secret",
        .register minerKey.address minerPath]).path? minerKey.address = some minerPath := by
      rw [after, path?_unlock, hregister]
    rw [attempts, attempts, attempts, if_pos rfl, if_pos rfl, hregister, hunlock]
    split <;> rfl
  have hopen : Attempt.key? ⟨minerPath, "secret"⟩ minerFiles = some minerKey := open?_miner
  rw [(answer_attempts hunchanged minerKey.address password).1, hattempts, List.reverse_cons,
    List.reverse_singleton, List.singleton_append, List.findSome?_cons, hopen]

end Keystore

end Runbook
