/-!
This module contains named entries that keep the order in which they were declared.
-/

namespace Runbook

/--
Named values in order. `Entries.set` keeps names from standing twice.
-/
abbrev Entries (α : Type) := List (String × α)

namespace Entries

variable {α β : Type}

def find? (es : Entries α) (name : String) : Option α :=
  List.lookup name es

def contains (es : Entries α) (name : String) : Bool :=
  es.any (·.1 == name)

def names (es : Entries α) : List String :=
  es.map Prod.fst

/--
Give `name` a value: a known name keeps its place, a new one comes last.
-/
def set (es : Entries α) (name : String) (value : α) : Entries α :=
  match es with
  | [] => [(name, value)]
  | (n, v) :: es => if n = name then (n, value) :: es else (n, v) :: set es name value

def update (es : Entries α) (name : String) (f : α → α) : Entries α :=
  es.map fun (n, v) => if n = name then (n, f v) else (n, v)

theorem find?_cons (n : String) (v : α) (es : Entries α) (name : String) :
    find? ((n, v) :: es) name = if name = n then some v else find? es name := by
  by_cases h : name = n
  . subst h
    simp [find?]
  . have hb : (name == n) = false := by simp [h]
    simp [find?, List.lookup_cons, hb, h]

theorem contains_cons (n : String) (v : α) (es : Entries α) (name : String) :
    contains ((n, v) :: es) name = (n == name || contains es name) := rfl

theorem contains_eq (es : Entries α) (name : String) :
    es.contains name = (es.find? name).isSome := by
  induction es with
  | nil => rfl
  | cons e es ih =>
    rw [contains_cons, find?_cons, ih]
    by_cases h : name = e.1
    . simp [h]
    . have hb : (e.1 == name) = false := by simpa using fun hn => h hn.symm
      simp [h, hb]

theorem find?_set (es : Entries α) (name : String) (value : α) :
    (es.set name value).find? name = some value := by
  induction es with
  | nil => simp [set, find?]
  | cons e es ih =>
    unfold set
    split
    . rename_i h
      rw [find?_cons, if_pos h.symm]
    . rename_i h
      rw [find?_cons, if_neg fun hn => h hn.symm, ih]

theorem find?_set_of_ne (es : Entries α) {name name' : String} (value : α) (hne : name' ≠ name) :
    (es.set name value).find? name' = es.find? name' := by
  induction es with
  | nil => rw [set, find?_cons, if_neg hne]
  | cons e es ih =>
    unfold set
    split
    . next heq =>
      rw [find?_cons, find?_cons, if_neg (heq ▸ hne), if_neg (heq ▸ hne)]
    . rw [find?_cons, find?_cons, ih]

theorem names_set (es : Entries α) (name : String) (value : α) :
    (es.set name value).names = if es.contains name then es.names else es.names ++ [name] := by
  induction es with
  | nil => rfl
  | cons e es ih =>
    rw [contains_cons]
    unfold set
    split
    . rename_i h
      simp [names, h]
    . rename_i h
      have hb : (e.1 == name) = false := by simpa using h
      simp only [names, List.map_cons] at ih ⊢
      rw [ih, hb, Bool.false_or]
      split <;> simp

end Entries

end Runbook
