import Runbook.Main

/-!
This module contains what the store of keyfiles keeps: a key that is open for an address stays open
for it, through whatever is asked for or registered for other addresses.
-/

namespace Runbook

namespace Keystore

variable {files : Files} {s s' : Keystore} {a b : Address} {password : String} {path : Path}

def Opens (s : Keystore) (a : Address) : Prop :=
  ∃ key, s.key? a = some key ∧ key.address = a

theorem lookup_remove_of_ne {α : Type} (entries : List (Address × α)) (hne : b ≠ a)
    : (remove entries a).lookup b = entries.lookup b := by
  induction entries with
  | nil => rfl
  | cons e entries ih =>
    obtain ⟨c, x⟩ := e
    unfold remove at ih ⊢
    by_cases hc : c = a
    . subst hc
      have hb : (b == c) = false := by simpa using hne
      rw [List.filter_cons_of_neg (by simp), ih, List.lookup_cons, hb]
    . rw [List.filter_cons_of_pos (by simpa using hc), List.lookup_cons, List.lookup_cons, ih]

theorem key?_register_of_ne (hne : b ≠ a) : (s.register a path).key? b = s.key? b := by
  unfold register key?
  dsimp only
  split
  . rfl
  . exact lookup_remove_of_ne s.keys hne

theorem unlock_of_key? {key : PrivateKey} (h : s.key? a = some key)
    : s.unlock files a password = (.key key, s) := by
  unfold unlock
  rw [h]

theorem key?_unlock_of_ne (hne : b ≠ a) : (s.unlock files a password).2.key? b = s.key? b := by
  unfold unlock
  split
  . rfl
  . split
    . rfl
    . split
      . have hb : (b == a) = false := by simpa using hne
        unfold key?
        dsimp only
        rw [List.lookup_cons, hb]
      . rfl

theorem key?_of_unlock {key : PrivateKey} (h : s.unlock files a password = (.key key, s'))
    : s'.key? a = some key := by
  unfold unlock at h
  split at h
  . next hkey =>
    cases h
    exact hkey
  . split at h
    . cases h
    . split at h
      . cases h
        unfold key?
        simp
      . cases h

def Extends (s s' : Keystore) : Prop :=
  ∀ a key, s.key? a = some key → s'.key? a = some key

theorem Extends.refl (s : Keystore) : s.Extends s :=
  fun _ _ h => h

theorem extends_unlock (files : Files) (s : Keystore) (a : Address) (password : String)
    : s.Extends (s.unlock files a password).2 := by
  intro b key hkey
  by_cases hne : b = a
  . rw [← hne, unlock_of_key? hkey]
    exact hkey
  . rw [key?_unlock_of_ne hne]
    exact hkey

def Keeps (s s' : Keystore) : Prop :=
  ∀ a, s.Opens a → s'.Opens a

theorem Keeps.refl (s : Keystore) : s.Keeps s :=
  fun _ h => h

theorem Keeps.trans {s'' : Keystore} (h : s.Keeps s') (h' : s'.Keeps s'') : s.Keeps s'' :=
  fun a ha => h' a (h a ha)

theorem Extends.keeps (h : s.Extends s') : s.Keeps s' :=
  fun a ⟨key, hkey, haddress⟩ => ⟨key, h a key hkey, haddress⟩

theorem keeps_of_register {key : PrivateKey}
    (h : (s.register a path).unlock files a password = (.key key, s')) (hkey : key.address = a)
    : s.Keeps s' ∧ s'.Opens a := by
  have hopens : s'.Opens a := ⟨key, key?_of_unlock h, hkey⟩
  refine ⟨fun b hb => ?_, hopens⟩
  by_cases hne : b = a
  . rw [hne]
    exact hopens
  . have hsame : ((s.register a path).unlock files a password).2.key? b
        = (s.register a path).key? b := key?_unlock_of_ne hne
    rw [h, key?_register_of_ne hne] at hsame
    unfold Opens
    rw [hsame]
    exact hb

end Keystore

/--
The keyring is the store of keyfiles that `store` finds in the world. The keyfiles do not change.
-/
structure Keyring.IsStore {ω : Type} (keyring : Keyring ω) (files : Files) (store : ω → Keystore)
    : Prop where
  register : ∀ a path w, store (keyring.register a path w) = (store w).register a path
  unregister : ∀ a path w, store (keyring.unregister a path w) = (store w).unregister a path
  unlock : ∀ a password w,
    ((keyring.unlock a password w).1, store (keyring.unlock a password w).2)
      =
    (store w).unlock files a password

theorem Keystore.isStore_keyring (files : Files) : (Keystore.keyring files).IsStore files id where
  register _ _ _ := rfl
  unregister _ _ _ := rfl
  unlock _ _ _ := rfl

theorem Main.isStore_keyring (files : Files) : (keyring files).IsStore files Console.keystore where
  register _ _ _ := rfl
  unregister _ _ _ := rfl
  unlock _ _ _ := rfl

end Runbook
