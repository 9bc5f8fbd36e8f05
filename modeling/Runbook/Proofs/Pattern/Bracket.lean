import Runbook.Pattern.Bracket
import Runbook.Proofs.Pattern.Escape

/-!
This module contains the proof that bracketed sets of characters are read in the same way when the
expression stands in a group.
-/

namespace Runbook.Pattern

variable {m : Mode} {cs rest back : List Char}
variable {b b' : Bracket} {a : Atom} {s : CharSet}

namespace Bracket

/--
What may follow an opening bracket behind the sign of complement.
-/
def begin (m : Mode) (negated : Bool) (cs : List Char) : Bracket × List Char :=
  let hyphens := cs.takeWhile (· == '-')
  let b : Bracket := ⟨negated, none, .none⟩
  if !hyphens.isEmpty then (b.add (.single '-'), m.skip (cs.drop hyphens.length))
  else
    match cs with
    | ']' :: cs => (b.add (.single ']'), m.skip cs)
    | cs => (b, cs)

variable {negated : Bool} {c : Char}

theorem begin_of_hyphen (m : Mode) (negated : Bool) (cs : List Char)
    : begin m negated ('-' :: cs)
        = ((⟨negated, none, .none⟩ : Bracket).add (.single '-'),
            m.skip (('-' :: cs).dropWhile (· == '-'))) := by
  rw [← drop_length_takeWhile]
  rfl

theorem begin_of_close (m : Mode) (negated : Bool) (cs : List Char)
    : begin m negated (']' :: cs)
        = ((⟨negated, none, .none⟩ : Bracket).add (.single ']'), m.skip cs) := rfl

theorem begin_of_ne (hhyphen : c ≠ '-') (hclose : c ≠ ']')
    : begin m negated (c :: cs) = (⟨negated, none, .none⟩, c :: cs) := by
  unfold begin
  simp [hhyphen, hclose]

theorem begin_append (h : begin m negated cs = (b, rest)) (hrest : rest ≠ [])
    : begin m negated (cs ++ back) = (b, rest ++ back) := by
  cases cs with
  | nil =>
    cases h
    exact absurd rfl hrest
  | cons c cs =>
    rw [List.cons_append]
    by_cases hhyphen : c = '-'
    . subst hhyphen
      rw [begin_of_hyphen] at h ⊢
      cases h
      have hafter : ('-' :: cs).dropWhile (· == '-') ≠ [] := by
        intro hnil
        rw [hnil, m.skip_nil] at hrest
        exact hrest rfl
      rw [← List.cons_append, dropWhile_append_of_ne_nil hafter, Mode.skip_append hrest]
    . by_cases hclose : c = ']'
      . subst hclose
        rw [begin_of_close] at h ⊢
        cases h
        rw [Mode.skip_append hrest]
      . rw [begin_of_ne hhyphen hclose] at h ⊢
        cases h
        rfl

theorem open?_of_caret {ds : List Char} (h : m.skip cs = '^' :: ds)
    : open? m cs = begin m true (m.skip ds) := by
  unfold open?
  rw [h]
  rfl

theorem open?_of_ne_caret (h : ∀ ds, m.skip cs ≠ '^' :: ds)
    : open? m cs = begin m false (m.skip cs) := by
  unfold open?
  dsimp only
  split
  . next heq => exact absurd heq (h _)
  . rfl

theorem open?_append (h : open? m cs = (b, rest)) (hrest : rest ≠ [])
    : open? m (cs ++ back) = (b, rest ++ back) := by
  by_cases hcaret : ∃ ds, m.skip cs = '^' :: ds
  . obtain ⟨ds, hskip⟩ := hcaret
    have hback : m.skip (cs ++ back) = '^' :: (ds ++ back) := by
      rw [Mode.skip_append (by simp [hskip]), hskip, List.cons_append]
    rw [open?_of_caret hskip] at h
    have hds : m.skip ds ≠ [] := by
      intro hnil
      rw [hnil] at h
      cases h
      exact hrest rfl
    rw [open?_of_caret hback, Mode.skip_append hds]
    exact begin_append h hrest
  . rw [open?_of_ne_caret (not_exists.mp hcaret)] at h
    have hne : m.skip cs ≠ [] := by
      intro hnil
      rw [hnil] at h
      cases h
      exact hrest rfl
    rw [open?_of_ne_caret, Mode.skip_append hne]
    . exact begin_append h hrest
    . intro ds hds
      rw [Mode.skip_append hne] at hds
      exact hcaret (exists_cons_of_append hne hds)

end Bracket

theorem member?_closing (h : member? m cs = some (a, rest))
    : member? m (cs ++ closing) = some (a, rest ++ closing) := by
  unfold member? at h
  split at h
  . cases h
  . exact escape?_closing h
  . next c cs hc =>
    cases h
    rw [List.cons_append]
    unfold member?
    split
    . next heq => cases heq
    . next heq =>
      injection heq with heq
      exact (hc heq).elim
    . next heq =>
      cases heq
      rfl

def classNamed? (m : Mode) (negated : Bool) (name : List Char) : Option CharSet :=
  (posixClass? (String.ofList name)).bind fun s => if negated then m.compl? s else some s

def class? (m : Mode) (negated : Bool) (cs : List Char) : Option (CharSet × List Char) :=
  match cs.dropWhile (· ≠ ':') with
  | ':' :: ']' :: rest => (classNamed? m negated (cs.takeWhile (· ≠ ':'))).map fun s => (s, rest)
  | _ => none

theorem class?_closing (m : Mode) (negated : Bool) (cs : List Char)
    : class? m negated (cs ++ closing)
        = (class? m negated cs).map fun (s, rest) => (s, rest ++ closing) := by
  unfold class?
  by_cases hnil : cs.dropWhile (· ≠ ':') = []
  . rw [List.dropWhile_append, hnil]
    rfl
  . rw [dropWhile_append_of_ne_nil hnil, takeWhile_append_of_ne_nil hnil]
    split
    . next heq =>
      obtain ⟨ds, hds⟩ := exists_cons_cons_of_append hnil (by decide) heq
      rw [hds] at heq ⊢
      cases heq
      cases classNamed? m negated (cs.takeWhile (· ≠ ':')) <;> rfl
    . next hopen =>
      split
      . next hds => exact absurd (congrArg (· ++ closing) hds) (hopen _)
      . rfl

def sign : List Char → Bool × List Char
  | '^' :: cs => (true, cs)
  | cs => (false, cs)

theorem sign_closing (cs : List Char)
    : sign (cs ++ closing) = ((sign cs).1, (sign cs).2 ++ closing) := by
  cases cs with
  | nil => rfl
  | cons c cs =>
    by_cases hc : c = '^'
    . subst hc
      rfl
    . simp [sign, hc]

theorem named?_colon (m : Mode) (cs : List Char)
    : named? m (':' :: cs) = class? m (sign cs).1 (sign cs).2 := by
  unfold class? classNamed?
  rw [← drop_length_takeWhile]
  show (match (sign cs).2.drop ((sign cs).2.takeWhile (· ≠ ':')).length with
    | ':' :: ']' :: rest => do
      let s ← posixClass? (String.ofList ((sign cs).2.takeWhile (· ≠ ':')))
      if (sign cs).1 then return (← m.compl? s, rest) else return (s, rest)
    | _ => none) = _
  split
  . cases posixClass? (String.ofList ((sign cs).2.takeWhile (· ≠ ':'))) with
    | none => rfl
    | some s =>
      dsimp only [Option.bind_eq_bind, Option.bind_some]
      split
      . cases m.compl? s <;> rfl
      . rfl
  . rfl

theorem named?_of_ne_colon (h : ∀ ds, cs ≠ ':' :: ds) : named? m cs = none := by
  unfold named?
  split
  . exact absurd rfl (h _)
  . rfl

theorem named?_closing (m : Mode) (cs : List Char)
    : named? m (cs ++ closing) = (named? m cs).map fun (s, rest) => (s, rest ++ closing) := by
  by_cases hcolon : ∃ ds, cs = ':' :: ds
  . obtain ⟨ds, rfl⟩ := hcolon
    rw [List.cons_append, named?_colon, named?_colon, sign_closing, class?_closing]
  . rw [named?_of_ne_colon (not_exists.mp hcolon), named?_of_ne_colon]
    . rfl
    . intro ds hds
      by_cases hnil : cs = []
      . subst hnil
        exact closing_ne (by decide) ds hds
      . exact hcolon (exists_cons_of_append hnil hds)

def startsRange (m : Mode) (cs : List Char) : Bool :=
  match cs with
  | '-' :: rest =>
    match m.skip rest with
    | ']' :: _ | '-' :: _ => false
    | _ => true
  | _ => false

theorem startsRange_append (hne : cs ≠ []) (hrest : ∀ ds, cs = '-' :: ds → m.skip ds ≠ [])
    : startsRange m (cs ++ back) = startsRange m cs := by
  cases cs with
  | nil => exact absurd rfl hne
  | cons c cs =>
    by_cases hc : c = '-'
    . subst hc
      have hskip := hrest cs rfl
      show (match m.skip (cs ++ back) with
        | ']' :: _ | '-' :: _ => false
        | _ => true) = _
      rw [Mode.skip_append hskip]
      cases hds : m.skip cs with
      | nil => exact absurd hds hskip
      | cons d ds =>
        rw [startsRange, hds, List.cons_append]
        by_cases hclose : d = ']'
        . subst hclose
          rfl
        . by_cases hhyphen : d = '-'
          . subst hhyphen
            rfl
          . simp [hclose, hhyphen]
    . simp [startsRange, hc]

theorem exists_of_startsRange (h : startsRange m cs = true) : ∃ ds, cs = '-' :: ds := by
  unfold startsRange at h
  split at h
  . exact ⟨_, rfl⟩
  . cases h

def single? (m : Mode) : Atom → Option CharSet
  | .literal c => (literal? m c).map .single
  | .set s => some s
  | .look _ => none

def between? (m : Mode) : Atom → Atom → Option CharSet
  | .literal a, .literal b => do
    let a ← literal? m a
    let b ← literal? m b
    if a ≤ b then some (.range a b) else none
  | _, _ => none

theorem range?_eq (m : Mode) (cs : List Char)
    : range? m cs = do
        let (first, cs) ← member? m cs
        if startsRange m (m.skip cs) then
          let (last, cs) ← member? m (m.skip ((m.skip cs).drop 1))
          return (← between? m first last, cs)
        else return (← single? m first, m.skip cs) := by
  unfold range?
  cases member? m cs with
  | none => rfl
  | some first =>
    obtain ⟨first, ds⟩ := first
    show (if startsRange m (m.skip ds) then _ else _) = _
    dsimp only [Option.bind_eq_bind, Option.bind_some]
    split
    . cases member? m (m.skip ((m.skip ds).drop 1)) with
      | none => rfl
      | some last =>
        obtain ⟨last, ds'⟩ := last
        cases first with
        | literal a =>
          cases last with
          | literal b =>
            dsimp only [Option.bind_some, between?, Option.bind_eq_bind]
            cases literal? m a with
            | none => rfl
            | some a =>
              cases literal? m b with
              | none => rfl
              | some b =>
                dsimp only [Option.bind_some]
                split <;> rfl
          | _ => rfl
        | _ => rfl
    . cases first with
      | literal c =>
        dsimp only [single?]
        cases literal? m c <;> rfl
      | _ => rfl

theorem member?_nil (m : Mode) : member? m [] = none := rfl

theorem range?_closing (h : range? m cs = some (s, rest)) (hrest : rest ≠ [])
    : range? m (cs ++ closing) = some (s, rest ++ closing) := by
  rw [range?_eq] at h ⊢
  obtain ⟨⟨first, ds⟩, hfirst, h⟩ := Option.bind_eq_some_iff.mp h
  rw [member?_closing hfirst]
  dsimp only [Option.bind_eq_bind, Option.bind_some] at h ⊢
  split at h
  . next hstarts =>
    obtain ⟨⟨last, ds'⟩, hlast, h⟩ := Option.bind_eq_some_iff.mp h
    obtain ⟨s', hs', h⟩ := Option.bind_eq_some_iff.mp h
    cases h
    obtain ⟨ds₁, hds₁⟩ := exists_of_startsRange hstarts
    rw [hds₁, List.drop_one, List.tail_cons] at hlast
    have hne : m.skip ds₁ ≠ [] := by
      intro hnil
      rw [hnil, member?_nil] at hlast
      cases hlast
    have hskip : m.skip (ds ++ closing) = m.skip ds ++ closing :=
      Mode.skip_append (by simp [hds₁])
    have hstarts' : startsRange m (m.skip ds ++ closing) = startsRange m (m.skip ds) := by
      rw [hds₁]
      apply startsRange_append (List.cons_ne_nil _ _)
      intro ds' hds'
      cases hds'
      exact hne
    rw [hskip, hstarts', if_pos hstarts, hds₁, List.cons_append, List.drop_one, List.tail_cons,
      Mode.skip_append hne, member?_closing hlast]
    dsimp only [Option.bind_some]
    rw [hs']
    rfl
  . next hstarts =>
    obtain ⟨s', hs', h⟩ := Option.bind_eq_some_iff.mp h
    cases h
    have hstarts' : startsRange m (m.skip ds ++ closing) = startsRange m (m.skip ds) := by
      apply startsRange_append hrest
      intro ds' hds' hnil
      apply hstarts
      rw [hds']
      show (match m.skip ds' with
        | ']' :: _ | '-' :: _ => false
        | _ => true) = true
      rw [hnil]
    rw [Mode.skip_append hrest, hstarts', if_neg hstarts, hs']
    rfl

theorem brackets?_nil {fuel : Nat} {outer : List Bracket} : brackets? m fuel b outer [] = none := by
  cases fuel with
  | zero => rfl
  | succ fuel =>
    unfold brackets?
    rw [m.skip_nil]

theorem brackets?_of_open {fuel : Nat} {outer : List Bracket} {ds : List Char}
    (hskip : m.skip cs = '[' :: ds)
    : brackets? m (fuel + 1) b outer cs =
        match named? m ds with
        | some (s, cs) => brackets? m fuel (b.add s) outer cs
        | none =>
          brackets? m fuel (Bracket.open? m ds).1 (b :: outer) (Bracket.open? m ds).2 := by
  rw [brackets?, hskip]
  rfl

theorem brackets?_of_close {fuel : Nat} {outer : List Bracket} {ds : List Char}
    (hskip : m.skip cs = ']' :: ds)
    : brackets? m (fuel + 1) b outer cs =
        (b.close? m).bind fun s =>
          match outer with
          | [] => some (s, ds)
          | b' :: outer => brackets? m fuel (b'.add s) outer ds := by
  rw [brackets?, hskip]
  rfl

section Closing

variable {fuel extra : Nat} {outer : List Bracket} {ds : List Char}
  (ih : ∀ {b outer cs}, brackets? m fuel b outer cs = some (s, rest) →
    brackets? m (fuel + extra) b outer (cs ++ closing) = some (s, rest ++ closing))

include ih

theorem brackets?_open_closing (hskip : m.skip cs = '[' :: ds)
    (h : brackets? m (fuel + 1) b outer cs = some (s, rest))
    : brackets? m (fuel + extra + 1) b outer (cs ++ closing) = some (s, rest ++ closing) := by
  have hback : m.skip (cs ++ closing) = '[' :: (ds ++ closing) := by
    rw [Mode.skip_append (by simp [hskip]), hskip, List.cons_append]
  rw [brackets?_of_open hskip] at h
  rw [brackets?_of_open hback, named?_closing]
  split at h
  . next hnamed =>
    rw [hnamed]
    exact ih h
  . next hnamed =>
    rw [hnamed]
    cases hopen : Bracket.open? m ds with
    | mk inner ds' =>
      rw [hopen] at h
      dsimp only at h
      have hds' : ds' ≠ [] := by
        rintro rfl
        rw [brackets?_nil] at h
        cases h
      rw [Bracket.open?_append hopen hds']
      exact ih h

theorem brackets?_close_closing (hskip : m.skip cs = ']' :: ds)
    (h : brackets? m (fuel + 1) b outer cs = some (s, rest))
    : brackets? m (fuel + extra + 1) b outer (cs ++ closing) = some (s, rest ++ closing) := by
  have hback : m.skip (cs ++ closing) = ']' :: (ds ++ closing) := by
    rw [Mode.skip_append (by simp [hskip]), hskip, List.cons_append]
  rw [brackets?_of_close hskip] at h
  rw [brackets?_of_close hback]
  obtain ⟨s', hs', h⟩ := Option.bind_eq_some_iff.mp h
  rw [hs', Option.bind_some]
  cases outer with
  | nil =>
    cases h
    rfl
  | cons b' outer => exact ih h

end Closing

theorem brackets?_closing {fuel : Nat} {outer : List Bracket}
    (h : brackets? m fuel b outer cs = some (s, rest)) (extra : Nat)
    : brackets? m (fuel + extra) b outer (cs ++ closing) = some (s, rest ++ closing) := by
  induction fuel generalizing b outer cs with
  | zero => cases h
  | succ fuel ih =>
    rw [Nat.succ_add]
    by_cases hopen : ∃ ds, m.skip cs = '[' :: ds
    . obtain ⟨ds, hskip⟩ := hopen
      exact brackets?_open_closing ih hskip h
    by_cases hclose : ∃ ds, m.skip cs = ']' :: ds
    . obtain ⟨ds, hskip⟩ := hclose
      exact brackets?_close_closing ih hskip h
    have hne : m.skip cs ≠ [] := by
      intro hnil
      unfold brackets? at h
      rw [hnil] at h
      cases h
    have hback : m.skip (cs ++ closing) = m.skip cs ++ closing := Mode.skip_append hne
    unfold brackets? at h ⊢
    rw [hback]
    generalize m.skip cs = ds at h hne hopen hclose
    split at h
    . cases h
    . exact absurd ⟨_, rfl⟩ hopen
    . exact absurd ⟨_, rfl⟩ hclose
    . exact ih h
    . exact ih h
    . exact ih h
    . next hinter hdiff hsymm =>
      obtain ⟨⟨s', ds'⟩, hrange, h⟩ := Option.bind_eq_some_iff.mp h
      dsimp only at h
      have hds' : ds' ≠ [] := by
        rintro rfl
        rw [brackets?_nil] at h
        cases h
      -- What closes the group makes none of the other cases out of a member.
      split
      . next heq => exact absurd (List.append_eq_nil_iff.mp heq).1 hne
      . next heq => exact absurd (exists_cons_of_append hne heq) hopen
      . next heq => exact absurd (exists_cons_of_append hne heq) hclose
      . next heq =>
        obtain ⟨_, heq⟩ := exists_cons_cons_of_append hne (by decide) heq
        exact (hinter _ heq).elim
      . next heq =>
        obtain ⟨_, heq⟩ := exists_cons_cons_of_append hne (by decide) heq
        exact (hdiff _ heq).elim
      . next heq =>
        obtain ⟨_, heq⟩ := exists_cons_cons_of_append hne (by decide) heq
        exact (hsymm _ heq).elim
      . rw [range?_closing hrange hds']
        exact ih h

theorem bracketed?_closing (h : bracketed? m cs = some (s, rest))
    : bracketed? m (cs ++ closing) = some (s, rest ++ closing) := by
  unfold bracketed? at h ⊢
  cases hopen : Bracket.open? m cs with
  | mk b ds =>
    rw [hopen] at h
    dsimp only at h
    have hne : ds ≠ [] := by
      rintro rfl
      rw [brackets?_nil] at h
      cases h
    rw [Bracket.open?_append hopen hne, List.length_append, Nat.add_right_comm]
    exact brackets?_closing h _

end Runbook.Pattern
