import Runbook.Pattern.Reader
import Runbook.Proofs.Pattern.Bracket

/-!
This module contains the reading of a regular expression in a group: it fails, or it finds what the
expression is by itself.
-/

namespace Runbook.Pattern

variable {m : Mode} {cs rest back : List Char}

theorem groupName?_append {name : String} (h : groupName? cs = some (name, rest))
    : groupName? (cs ++ back) = some (name, rest ++ back) := by
  unfold groupName? at h ⊢
  dsimp only at h ⊢
  rw [drop_length_takeWhile] at h ⊢
  have hne : cs.dropWhile (fun c => decide (c ≠ '>')) ≠ [] := by
    intro hnil
    rw [hnil] at h
    split at h <;> simp_all
  rw [takeWhile_append_of_ne_nil hne, dropWhile_append_of_ne_nil hne]
  split at h
  . next hname hrest =>
    rw [hname, hrest, List.cons_append]
    dsimp only
    split at h
    . next hchars =>
      rw [if_pos hchars]
      cases h
      rw [hname]
    . cases h
  . cases h

def switched? (m : Mode) (cs : List Char) : Option (Opening × List Char) := do
  let (m', rest) ← m.read? [] cs
  match rest with
  | ')' :: after => if rest.length = cs.length then none else return (.switch m', after)
  | _ :: after => return (.group m' none, after)
  | [] => none

theorem switched?_append {o : Opening} (h : switched? m cs = some (o, rest))
    : switched? m (cs ++ back) = some (o, rest ++ back) := by
  unfold switched? at h ⊢
  obtain ⟨⟨m', ds⟩, hread, h⟩ := Option.bind_eq_some_iff.mp h
  rw [Mode.read?_append hread]
  dsimp only [Option.bind_eq_bind, Option.bind_some] at h ⊢
  split at h
  . next after =>
    split at h
    . cases h
    . next hlength =>
      cases h
      have hlength' : (')' :: (rest ++ back)).length ≠ (cs ++ back).length := by
        simp only [List.length_cons, List.length_append] at hlength ⊢
        omega
      exact if_neg hlength'
  . next c after hc =>
    cases h
    rw [List.cons_append]
    split
    . next heq =>
      injection heq with hc'
      exact (hc hc').elim
    . next heq =>
      cases heq
      rfl
    . next heq => cases heq
  . cases h

theorem switched?_ne {o : Opening} {c : Char} (h : switched? m (c :: cs) = some (o, rest))
    : c ≠ 'P' ∧ c ≠ '<' ∧ c ≠ '=' ∧ c ≠ '!' := by
  obtain ⟨⟨m', ds⟩, hread, _⟩ := Option.bind_eq_some_iff.mp h
  refine ⟨?_, ?_, ?_, ?_⟩
  all_goals
    rintro rfl
    cases hread

theorem opening?_of_letter {c : Char} {ds : List Char} (hskip : m.skip cs = '?' :: c :: ds)
    (hc : c ≠ 'P' ∧ c ≠ '<' ∧ c ≠ '=' ∧ c ≠ '!') : opening? m cs = switched? m (c :: ds) := by
  unfold opening? switched?
  rw [hskip]
  split <;> grind

theorem opening?_of_name {ds : List Char} (hskip : m.skip cs = '?' :: 'P' :: '<' :: ds)
    : opening? m cs = (groupName? ds).map fun (name, cs) => (.group m name, cs) := by
  unfold opening?
  rw [hskip]
  rfl

theorem opening?_of_angle {c : Char} {ds : List Char} (hskip : m.skip cs = '?' :: '<' :: c :: ds)
    (hc : c ≠ '=' ∧ c ≠ '!')
    : opening? m cs = (groupName? (c :: ds)).map fun (name, cs) => (.group m name, cs) := by
  unfold opening?
  rw [hskip]
  split <;> grind

theorem opening?_of_plain {c : Char} {ds : List Char} (hskip : m.skip cs = c :: ds) (hc : c ≠ '?')
    : opening? m cs = some (.group m none, c :: ds) := by
  unfold opening?
  rw [hskip]
  split <;> grind

theorem opening?_append {o : Opening} (h : opening? m cs = some (o, rest))
    (hrest : rest ≠ [] ∨ ∃ mode, o = .switch mode)
    : opening? m (cs ++ back) = some (o, rest ++ back) := by
  -- With nothing left to read there would be a group with nothing in it, which `hrest` excludes.
  have hne : m.skip cs ≠ [] := by
    intro hnil
    unfold opening? at h
    rw [hnil] at h
    cases h
    simp at hrest
  have hback : m.skip (cs ++ back) = m.skip cs ++ back := Mode.skip_append hne
  unfold opening? at h
  split at h
  . next ds hskip =>
    simp only [hskip, List.cons_append] at hback
    obtain ⟨⟨name, ds'⟩, hname, heq⟩ := Option.map_eq_some_iff.mp h
    cases heq
    rw [opening?_of_name hback, groupName?_append hname]
    rfl
  . cases h
  . cases h
  . cases h
  . cases h
  . next ds hahead hbehind hskip =>
    obtain ⟨⟨name, ds'⟩, hname, heq⟩ := Option.map_eq_some_iff.mp h
    cases heq
    cases ds with
    | nil => cases hname
    | cons c ds =>
      simp only [hskip, List.cons_append] at hback
      have hc : c ≠ '=' ∧ c ≠ '!' :=
        ⟨fun hc => hahead _ (congrArg (· :: ds) hc), fun hc => hbehind _ (congrArg (· :: ds) hc)⟩
      have hname' : groupName? (c :: (ds ++ back)) = some (name, rest ++ back) :=
        groupName?_append hname
      rw [opening?_of_angle hback hc, hname']
      rfl
  . next ds _ _ _ _ _ _ hskip =>
    have hswitched : switched? m ds = some (o, rest) := h
    cases ds with
    | nil => cases hswitched
    | cons c ds =>
      rw [hskip] at hback
      rw [opening?_of_letter hback (switched?_ne hswitched)]
      exact switched?_append hswitched
  . next hplain =>
    cases h
    cases hskip : m.skip cs with
    | nil => exact absurd hskip hne
    | cons c ds =>
      rw [hskip] at hback
      have hc : c ≠ '?' := by
        rintro rfl
        exact hplain _ hskip
      exact opening?_of_plain hback hc

section Counts

variable {n : Nat}

theorem dropWhile_ne_nil_of_skip {p : Char → Bool} (h : m.skip (cs.dropWhile p) ≠ [])
    : cs.dropWhile p ≠ [] := by
  intro hnil
  rw [hnil] at h
  apply h
  unfold Mode.skip
  split <;> rfl

theorem count?_append (h : count? m cs = some (n, rest)) (hrest : rest ≠ [])
    : count? m (cs ++ back) = some (n, rest ++ back) := by
  unfold count? at h ⊢
  dsimp only at h ⊢
  rw [drop_length_takeWhile] at h ⊢
  split at h
  . cases h
  . next hdigits =>
    cases h
    -- Something is left at the end, hence also after each step before.
    have hblanks := dropWhile_ne_nil_of_skip hrest
    have hskip : m.skip ((cs.dropWhile Text.isBlank).dropWhile Char.isDigit) ≠ [] := by
      intro hnil
      rw [hnil] at hblanks
      exact hblanks rfl
    have hafter := dropWhile_ne_nil_of_skip hskip
    have hstart : cs.dropWhile Text.isBlank ≠ [] := by
      intro hnil
      rw [hnil] at hafter
      exact hafter rfl
    rw [dropWhile_append_of_ne_nil hstart, takeWhile_append_of_ne_nil hafter,
      dropWhile_append_of_ne_nil hafter, Mode.skip_append hskip, dropWhile_append_of_ne_nil hblanks,
      Mode.skip_append hrest, if_neg hdigits]

def upper? (m : Mode) (least : Nat) (cs : List Char) : Option (Nat × Option Nat × List Char) :=
  match m.skip cs with
  | '\x7D' :: cs => return (least, none, cs)
  | cs => do
    let (most, cs) ← count? m cs
    match cs with
    | '\x7D' :: cs => if least ≤ most then return (least, some most, cs) else none
    | _ => none

theorem upper?_append {least : Nat} {most : Option Nat}
    (h : upper? m least cs = some (n, most, rest))
    : upper? m least (cs ++ back) = some (n, most, rest ++ back) := by
  unfold upper? at h ⊢
  have hne : m.skip cs ≠ [] := by
    intro hnil
    rw [hnil] at h
    cases h
  rw [Mode.skip_append hne]
  split at h
  . next hskip =>
    cases h
    rw [hskip]
    rfl
  . next hopen =>
    obtain ⟨⟨most, ds⟩, hcount, h⟩ := Option.bind_eq_some_iff.mp h
    dsimp only at h
    split at h
    . next ds =>
      split
      . next hskip =>
        cases hds : m.skip cs with
        | nil => exact absurd hds hne
        | cons c ds' =>
          rw [hds, List.cons_append] at hskip
          injection hskip with hc
          exact (hopen _ (hds.trans (congrArg (· :: ds') hc))).elim
      . rw [count?_append hcount (List.cons_ne_nil _ _)]
        split at h
        . next hle =>
          cases h
          exact if_pos hle
        . cases h
    . cases h

theorem counts?_append {most : Option Nat} (h : counts? m cs = some (n, most, rest))
    : counts? m (cs ++ back) = some (n, most, rest ++ back) := by
  unfold counts? at h ⊢
  have hne : m.skip cs ≠ [] := by
    intro hnil
    rw [hnil] at h
    cases h
  rw [Mode.skip_append hne]
  obtain ⟨⟨least, ds⟩, hleast, h⟩ := Option.bind_eq_some_iff.mp h
  dsimp only at h
  split at h
  . next ds =>
    cases h
    rw [count?_append hleast (List.cons_ne_nil _ _)]
    rfl
  . next ds =>
    rw [count?_append hleast (List.cons_ne_nil _ _)]
    exact upper?_append h
  . cases h

end Counts

theorem dropLazy_closing (m : Mode) (cs : List Char)
    : dropLazy m (cs ++ closing) = dropLazy m cs ++ closing ∨
      (dropLazy m cs = [] ∧ dropLazy m (cs ++ closing) = []) := by
  unfold dropLazy
  cases hskip : m.skip cs with
  | nil =>
    rcases Mode.skip_closing hskip with hclosing | hclosing
    . left
      rw [hclosing]
      rfl
    . right
      rw [hclosing]
      exact ⟨rfl, rfl⟩
  | cons c ds =>
    left
    rw [Mode.skip_append (by simp [hskip]), hskip, List.cons_append]
    by_cases hc : c = '?'
    . subst hc
      rfl
    . simp [hc]

theorem groups?_nil {names : List String} {fuel : Nat} {g o : Group} {outer : List Group}
    : groups? names fuel g (o :: outer) [] = none := by
  cases fuel with
  | zero => rfl
  | succ fuel =>
    unfold groups?
    rw [Mode.skip_nil]
    rfl

namespace Group

/--
What a group is once `p` stands closed in it and the end of the text is asked for.
-/
def around (o : Group) (p : Pattern) : Pattern :=
  ((o.add p).add (look o.mode.lineFinish o.mode.wordSet)).value

end Group

section Enclosed

variable {names : List String} {fuel : Nat} {g o : Group} {outer : List Group} {p q : Pattern}

theorem groups?_of_closing (ho : o.mode.verbose = false)
    (h : groups? names (fuel + 5) g [o] cs = some q) (hskip : g.mode.skip cs = closing)
    : q = o.around g.value := by
  have hdollar : (o.add g.value).mode.skip ['$'] = ['$'] := by
    unfold Mode.skip Group.add
    simp [ho]
  unfold groups? at h
  rw [hskip] at h
  have h : groups? names (fuel + 4) (o.add g.value) [] ['$'] = some q := h
  unfold groups? at h
  rw [hdollar] at h
  have h : groups? names (fuel + 3)
    ((o.add g.value).add (look o.mode.lineFinish o.mode.wordSet)) [] [] = some q := h
  unfold groups? at h
  rw [Mode.skip_nil] at h
  injection h with h
  exact h.symm

theorem groups?_end_closing (ho : o.mode.verbose = false) (hskip : g.mode.skip cs = [])
    (h : groups? names (fuel + 1) g outer cs = some p)
    (h' : groups? names (fuel + 4 + 1) g (outer ++ [o]) (cs ++ closing) = some q)
    : q = o.around p := by
  unfold groups? at h
  rw [hskip] at h
  dsimp only at h
  split at h
  . next houter =>
    cases h
    rw [List.isEmpty_iff.mp houter] at h'
    rcases Mode.skip_closing hskip with hclosing | hnil
    . exact groups?_of_closing ho h' hclosing
    . unfold groups? at h'
      rw [hnil] at h'
      cases h'
  . cases h

theorem groups?_repeat_closing {least : Nat} {most : Option Nat}
    (ih : ∀ {g cs}, groups? names fuel g outer cs = some p →
      groups? names (fuel + 4) g (outer ++ [o]) (cs ++ closing) = some q → q = o.around p)
    (h : ((g.repeatLast? least most).bind fun g =>
      groups? names fuel g outer (dropLazy g.mode cs)) = some p)
    (h' : ((g.repeatLast? least most).bind fun g =>
      groups? names (fuel + 4) g (outer ++ [o]) (dropLazy g.mode (cs ++ closing))) = some q)
    : q = o.around p := by
  obtain ⟨g', hg', h⟩ := Option.bind_eq_some_iff.mp h
  rw [hg', Option.bind_some] at h'
  rcases dropLazy_closing g'.mode cs with hclosing | ⟨-, hnil⟩
  . rw [hclosing] at h'
    exact ih h h'
  . rw [hnil] at h'
    cases outer <;> simp [groups?_nil] at h'

theorem groups?_of_open {ds : List Char} (hskip : g.mode.skip cs = '(' :: ds)
    : groups? names (fuel + 1) g outer cs =
        match opening? g.mode ds with
        | none => none
        | some (.switch mode, rest) =>
          groups? names fuel { g with mode, parts := none :: g.parts } outer rest
        | some (.group mode none, rest) => groups? names fuel (.ofMode mode) (g :: outer) rest
        | some (.group mode (some name), rest) =>
          if names.contains name then none
          else groups? (name :: names) fuel (.ofMode mode) (g :: outer) rest := by
  rw [groups?, hskip]
  rfl

theorem groups?_open_closing {ds : List Char}
    (ih : ∀ {names g outer cs}, groups? names fuel g outer cs = some p →
      groups? names (fuel + 4) g (outer ++ [o]) (cs ++ closing) = some q → q = o.around p)
    (hskip : g.mode.skip cs = '(' :: ds) (h : groups? names (fuel + 1) g outer cs = some p)
    (h' : groups? names (fuel + 4 + 1) g (outer ++ [o]) (cs ++ closing) = some q)
    : q = o.around p := by
  have hback : g.mode.skip (cs ++ closing) = '(' :: (ds ++ closing) := by
    rw [Mode.skip_append (by simp [hskip]), hskip, List.cons_append]
  rw [groups?_of_open hskip] at h
  rw [groups?_of_open hback] at h'
  split at h
  . cases h
  . next mode rest hopening =>
    rw [opening?_append hopening (.inr ⟨_, rfl⟩)] at h'
    exact ih h h'
  . next mode rest hopening =>
    have hrest : rest ≠ [] := by
      rintro rfl
      rw [groups?_nil] at h
      cases h
    rw [opening?_append hopening (.inl hrest)] at h'
    exact ih h h'
  . next mode name rest hopening =>
    split at h
    . cases h
    . next hname =>
      have hrest : rest ≠ [] := by
        rintro rfl
        rw [groups?_nil] at h
        cases h
      rw [opening?_append hopening (.inl hrest)] at h'
      dsimp only at h'
      rw [if_neg hname] at h'
      exact ih h h'

theorem groups?_closing (ho : o.mode.verbose = false)
    (h : groups? names fuel g outer cs = some p)
    (h' : groups? names (fuel + 4) g (outer ++ [o]) (cs ++ closing) = some q)
    : q = o.around p := by
  -- Both readers take the same step each round. The second one keeps rounds for what closes it.
  induction fuel generalizing names g outer cs with
  | zero => cases h
  | succ fuel ih =>
    rw [Nat.succ_add] at h'
    by_cases hne : g.mode.skip cs = []
    . exact groups?_end_closing ho hne h h'
    have hback : g.mode.skip (cs ++ closing) = g.mode.skip cs ++ closing := Mode.skip_append hne
    by_cases hopen : ∃ ds, g.mode.skip cs = '(' :: ds
    . obtain ⟨ds, hskip⟩ := hopen
      exact groups?_open_closing ih hskip h h'
    . unfold groups? at h h'
      rw [hback] at h'
      generalize g.mode.skip cs = ds at h h' hne hopen
      split at h
      . exact absurd rfl hne
      . exact absurd ⟨_, rfl⟩ hopen
      . cases outer with
        | nil => cases h
        | cons o' outer => exact ih h h'
      . exact ih h h'
      . exact groups?_repeat_closing ih h h'
      . exact groups?_repeat_closing ih h h'
      . exact groups?_repeat_closing ih h h'
      . next ds =>
        obtain ⟨⟨least, most, rest⟩, hcounts, h⟩ := Option.bind_eq_some_iff.mp h
        have h' : ((counts? g.mode (ds ++ closing)).bind fun r =>
          (g.repeatLast? r.1 r.2.1).bind fun g =>
            groups? names (fuel + 4) g (outer ++ [o]) (dropLazy g.mode r.2.2)) = some q := h'
        rw [counts?_append hcounts] at h'
        exact groups?_repeat_closing ih h h'
      . next ds =>
        obtain ⟨⟨s, rest⟩, hset, h⟩ := Option.bind_eq_some_iff.mp h
        have h' : ((bracketed? g.mode (ds ++ closing)).bind fun r =>
          groups? names (fuel + 4) (g.add (char r.1)) (outer ++ [o]) r.2) = some q := h'
        rw [bracketed?_closing hset] at h'
        exact ih h h'
      . next ds =>
        obtain ⟨s, hdot, h⟩ := Option.bind_eq_some_iff.mp h
        have h' : (g.mode.dot?.bind fun s =>
          groups? names (fuel + 4) (g.add (char s)) (outer ++ [o]) (ds ++ closing)) = some q := h'
        rw [hdot] at h'
        exact ih h h'
      . exact ih h h'
      . exact ih h h'
      . next ds =>
        obtain ⟨⟨atom, rest⟩, hatom, h⟩ := Option.bind_eq_some_iff.mp h
        obtain ⟨g', hg', h⟩ := Option.bind_eq_some_iff.mp h
        have h' : ((escape? g.mode (ds ++ closing)).bind fun r =>
          (g.addAtom? r.1).bind fun g =>
            groups? names (fuel + 4) g (outer ++ [o]) r.2) = some q := h'
        rw [escape?_closing hatom, Option.bind_some, hg'] at h'
        exact ih h h'
      . next c ds _ _ _ _ _ _ _ _ _ _ _ _ =>
        obtain ⟨g', hg', h⟩ := Option.bind_eq_some_iff.mp h
        rw [List.cons_append] at h'
        split at h'
        . next heq => cases heq
        iterate 12
          . next heq =>
            injection heq with hc
            contradiction
        . next heq =>
          cases heq
          obtain ⟨_, hg'', h'⟩ := Option.bind_eq_some_iff.mp h'
          cases hg'.symm.trans hg''
          exact ih h h'

end Enclosed

end Runbook.Pattern
