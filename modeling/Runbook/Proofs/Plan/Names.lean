import Runbook.Plan.Names
import Runbook.Plan.Basic

/-!
This module contains what claiming a name guarantees: it stands in no section yet, and the names of
all sections stay told apart.
-/

namespace Runbook

namespace Entries

variable {α : Type}

theorem mem_names_iff {es : Entries α} {name : String}
    : name ∈ es.names ↔ es.contains name = true := by
  unfold names contains
  rw [List.mem_map, List.any_eq_true]
  constructor
  . rintro ⟨e, he, rfl⟩
    exact ⟨e, he, beq_self_eq_true _⟩
  . rintro ⟨e, he, hname⟩
    exact ⟨e, he, eq_of_beq hname⟩

theorem exists_of_mem_names {es : Entries α} {name : String} (h : name ∈ es.names)
    : ∃ value, es.find? name = some value := by
  rw [mem_names_iff, contains_eq] at h
  exact Option.isSome_iff_exists.mp h

theorem mem_names_of_find? {es : Entries α} {name : String} {value : α}
    (h : es.find? name = some value) : name ∈ es.names := by
  rw [mem_names_iff, contains_eq, h]
  rfl

theorem find?_of_not_mem {es : Entries α} {name : String} (h : name ∉ es.names)
    : es.find? name = none := by
  rw [mem_names_iff, contains_eq] at h
  simpa using h

theorem set_of_not_mem {es : Entries α} {name : String} (value : α) (h : name ∉ es.names)
    : es.set name value = es ++ [(name, value)] := by
  induction es with
  | nil => rfl
  | cons e es ih =>
    obtain ⟨n, v⟩ := e
    have hcons : names ((n, v) :: es) = n :: names es := rfl
    rw [hcons, List.mem_cons, not_or] at h
    unfold set
    rw [if_neg (Ne.symm h.1), ih h.2, List.cons_append]

theorem names_set_perm {es : Entries α} {name : String} (value : α) (h : name ∉ es.names)
    : (es.set name value).names.Perm (name :: es.names) := by
  rw [set_of_not_mem value h]
  unfold names
  rw [List.map_append]
  exact List.perm_append_singleton _ _

end Entries

theorem perm_cons_append {α : Type} {a : α} {l l' : List α} (k : List α) (h : l'.Perm (a :: l))
    : (k ++ l').Perm (a :: (k ++ l)) :=
  (h.append_left k).trans List.perm_middle

theorem Names.contains_iff_of_claim {names names' : Names} {place name : String}
    (h : names.claim place name = .ok names') (n : String)
    : names'.contains n = true ↔ n = name ∨ names.contains n = true := by
  have hfresh := (Names.contains_of_claim h).1
  unfold claim at h
  split at h
  . cases h
  . cases h
    unfold contains at hfresh ⊢
    have hset : Entries.names (Entries.set names.sections name place)
        = Entries.names names.sections ++ [name] := by
      rw [Entries.names_set, hfresh]
      rfl
    rw [← Entries.mem_names_iff, ← Entries.mem_names_iff, hset, List.mem_append,
      List.mem_singleton, or_comm]

namespace Plan

def names (p : Plan) : List String :=
  Entries.names p.calls ++ Entries.names p.reads ++ Entries.names p.writes
    ++ Entries.names p.targets

structure Claims (p : Plan) (names : Names) : Prop where
  nodup : p.names.Nodup
  claimed : ∀ n ∈ p.names, names.contains n = true

theorem Claims.not_mem {p : Plan} {names names' : Names} {place name : String} (hp : p.Claims names)
    (h : names.claim place name = .ok names') : name ∉ p.names := by
  intro hmem
  have hfresh := (Names.contains_of_claim h).1
  rw [hp.claimed name hmem] at hfresh
  cases hfresh

theorem Claims.insert {p q : Plan} {names names' : Names} {place name : String}
    (hp : p.Claims names) (h : names.claim place name = .ok names')
    (hq : q.names.Perm (name :: p.names)) : q.Claims names' where
  nodup := hq.nodup_iff.mpr (List.nodup_cons.mpr ⟨hp.not_mem h, hp.nodup⟩)
  claimed n hn := by
    rw [Names.contains_iff_of_claim h]
    cases List.mem_cons.mp (hq.mem_iff.mp hn) with
    | inl heq => exact .inl heq
    | inr hmem => exact .inr (hp.claimed n hmem)

variable {p : Plan} {name : String}

structure Distinct (p : Plan) : Prop where
  reads : ∀ name ∈ Entries.names p.reads, p.calls.find? name = none
  writes : ∀ name ∈ Entries.names p.writes, p.calls.find? name = none ∧ p.reads.find? name = none
  targets : ∀ name ∈ Entries.names p.targets, p.kind? name = none

theorem distinct_of_nodup (h : p.names.Nodup) : p.Distinct := by
  unfold names at h
  simp only [List.nodup_append, List.mem_append] at h
  obtain ⟨⟨⟨_, _, hreads⟩, _, hwrites⟩, _, htargets⟩ := h
  refine ⟨fun name hname => ?_, fun name hname => ⟨?_, ?_⟩, fun name hname => ?_⟩
  . exact Entries.find?_of_not_mem fun hmem => hreads name hmem name hname rfl
  . exact Entries.find?_of_not_mem fun hmem => hwrites name (.inl hmem) name hname rfl
  . exact Entries.find?_of_not_mem fun hmem => hwrites name (.inr hmem) name hname rfl
  . have hnot : ∀ {α : Type} {es : Entries α}, name ∉ es.names → es.contains name = false := by
      intro α es hmem
      rwa [Entries.mem_names_iff, Bool.not_eq_true] at hmem
    unfold kind?
    rw [hnot fun hmem => htargets name (.inl (.inl hmem)) name hname rfl,
      hnot fun hmem => htargets name (.inl (.inr hmem)) name hname rfl,
      hnot fun hmem => htargets name (.inr hmem) name hname rfl]
    rfl

theorem commandIndices_of_call {c : CallCommand} (hc : p.calls.find? name = some c)
    : p.commandIndices name = c.argIndices := by
  unfold commandIndices
  rw [hc]

namespace Distinct

theorem commandIndices_of_read (h : p.Distinct) {c : ReadCommand}
    (hc : p.reads.find? name = some c) : p.commandIndices name = c.argIndices := by
  unfold commandIndices
  rw [h.reads name (Entries.mem_names_of_find? hc), hc]

theorem commandIndices_of_write (h : p.Distinct) {c : WriteCommand}
    (hc : p.writes.find? name = some c) : p.commandIndices name = c.argIndices := by
  obtain ⟨hcalls, hreads⟩ := h.writes name (Entries.mem_names_of_find? hc)
  unfold commandIndices
  rw [hcalls, hreads, hc]

theorem arity?_of_kind? (h : p.Distinct) {kind : CommandKind} (hkind : p.kind? name = some kind)
    : p.arity? name = some (arity (p.commandIndices name)) := by
  have htarget : p.targets.find? name = none := by
    apply Entries.find?_of_not_mem
    intro hmem
    rw [h.targets name hmem] at hkind
    cases hkind
  unfold arity?
  rw [htarget, hkind]
  rfl

end Distinct

end Plan

end Runbook
