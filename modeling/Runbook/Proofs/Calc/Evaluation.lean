import Runbook.Proofs.Calc.Lexing
import Runbook.Proofs.Calc.Reading

/-!
This module contains the proof that evaluating the printed text of an expression tree gives the
value of the tree, and that no other texts have a value than those that write a tree.
-/

namespace Runbook.Calc

open Text

theorem Tree.phrase_print (e : Tree) {level : Nat} (h : level ≤ operandLevel)
    : Phrase level e (e.print level) := by
  induction e generalizing level with
  | literal l => exact (Phrase.literal l).loosen h (Nat.le_refl _)
  | bool b => exact (Phrase.bool b).loosen h (Nat.le_refl _)
  | unary op e ih => exact (Phrase.unary op (ih (Nat.le_refl _))).loosen h (Nat.le_refl _)
  | binary op lhs rhs ihl ihr =>
    have hop : op.level + 1 ≤ operandLevel := Nat.succ_le_succ op.level_le
    have hbinary := Phrase.binary op (ihl (by omega)) (ihr hop)
    unfold print
    dsimp only
    split
    . next hle => exact hbinary.loosen hle (by omega)
    . exact (Phrase.parens (hbinary.loosen op.level_pos (by omega))).loosen h (Nat.le_refl _)

def withoutParens (ls : List Lexeme) : List Lexeme :=
  ls.filter (!·.isParen)

theorem withoutParens_append (ls ls' : List Lexeme)
    : withoutParens (ls ++ ls') = withoutParens ls ++ withoutParens ls' :=
  List.filter_append ..

theorem withoutParens_parens (ls : List Lexeme)
    : withoutParens (.lparen :: ls ++ [.rparen]) = withoutParens ls := by
  simp [withoutParens, Lexeme.isParen]

theorem Tree.withoutParens_print (e : Tree) (level level' : Nat)
    : withoutParens (e.print level) = withoutParens (e.print level') := by
  cases e with
  | binary op lhs rhs =>
    simp only [print]
    split <;> split <;> simp only [withoutParens_parens]
  | _ => rfl

theorem Tree.print_sublist_parens (e : Tree) {level : Nat} (level' : Nat)
    (hlevel : ∀ op lhs rhs, e = .binary op lhs rhs → level ≤ op.level)
    : (e.print level').Sublist (.lparen :: e.print level ++ [.rparen]) := by
  have hext : (e.print level).Sublist (.lparen :: e.print level ++ [.rparen]) :=
    List.Sublist.cons _ (List.sublist_append_left _ _)
  cases e with
  | binary op lhs rhs =>
    have hle := hlevel op lhs rhs rfl
    simp only [print, if_pos hle] at hext ⊢
    split
    . exact hext
    . exact List.Sublist.refl _
  | _ => exact hext

theorem Tree.print_sublist_print (e : Tree) (level : Nat)
    : (e.print level).Sublist (e.print (level + 1)) := by
  cases e with
  | binary op lhs rhs =>
    simp only [print]
    split
    . split
      . exact List.Sublist.refl _
      . exact List.Sublist.cons _ (List.sublist_append_left _ _)
    . next hlt =>
      have hlt' : ¬ level + 1 ≤ op.level := by omega
      simp only [if_neg hlt', List.Sublist.refl]
  | _ => exact List.Sublist.refl _

theorem Phrase.print_sublist {level : Nat} {e : Tree} {ls : List Lexeme} (h : Phrase level e ls)
    : (e.print level).Sublist ls ∧ withoutParens ls = withoutParens (e.print level) := by
  induction h with
  | literal l => exact ⟨List.Sublist.refl _, rfl⟩
  | bool b => exact ⟨List.Sublist.refl _, rfl⟩
  | unary op _ ih =>
    refine ⟨ih.1.cons_cons _, ?_⟩
    simp only [Tree.print, withoutParens, List.filter_cons] at ih ⊢
    rw [ih.2]
  | @parens e ls _ ih =>
    constructor
    . have hsub : (e.print Tree.operandLevel).Sublist (.lparen :: e.print 1 ++ [.rparen]) :=
        e.print_sublist_parens _ (fun op _ _ _ => op.level_pos)
      apply hsub.trans
      exact (ih.1.append (List.Sublist.refl _)).cons_cons _
    . rw [withoutParens_parens, ih.2]
      exact e.withoutParens_print _ _
  | binary op _ _ ihl ihr =>
    simp only [Tree.print, Nat.le_refl, if_true]
    refine ⟨ihl.1.append (ihr.1.cons_cons _), ?_⟩
    have hcons (ls : List Lexeme) : withoutParens (.op (.binary op) :: ls)
        = .op (.binary op) :: withoutParens ls := rfl
    rw [withoutParens_append, withoutParens_append, hcons, hcons, ihl.2, ihr.2]
  | @looser level e ls _ _ ih =>
    refine ⟨(e.print_sublist_print level).trans ih.1, ?_⟩
    rw [ih.2]
    exact e.withoutParens_print _ _

def spaced : List Lexeme → List Char
  | [] => []
  | [l] => l.chars
  | l :: ls => l.chars ++ ' ' :: spaced ls

theorem spaced_spaced (ls : List Lexeme) : Spaced ls (spaced ls) := by
  induction ls with
  | nil => exact .nil
  | cons l ls ih =>
    cases ls with
    | nil =>
      have := Spaced.lexeme l (fun c hc => by cases hc) .nil
      rwa [List.append_nil] at this
    | cons l' ls =>
      apply Spaced.lexeme l
      . intro c hc
        cases hc
        decide
      . exact .blank ' ' (by decide) ih

def Tree.text (e : Tree) : String :=
  String.ofList (spaced (e.print 1))

theorem Tree.spaced_text (e : Tree) : Spaced (e.print 1) e.text.toList := by
  rw [text, String.toList_ofList]
  exact spaced_spaced _

def Cause.within (text : String) (c : Cause) : Error :=
  c.report.attach ("in expression '" ++ text ++ "'")

theorem evaluate_of_tokens {text : String} {ls : List Lexeme} (hne : ls ≠ [])
    (h : tokens text = .ok (ls.map Lexeme.token))
    : evaluate text [] = (valueOf (ls.map Lexeme.token)).mapError (Cause.within text) := by
  unfold evaluate
  rw [h]
  cases ls with
  | nil => exact absurd rfl hne
  | cons l ls =>
    simp only [List.map_cons, List.isEmpty_nil, Bool.true_or, if_true]
    cases valueOf (l.token :: ls.map Lexeme.token) <;> rfl

theorem valueOf_of_evaluate {text : String} {v : Value} (h : evaluate text [] = .ok v)
    : ∃ ts, tokens text = .ok ts ∧ valueOf ts = .ok v := by
  unfold evaluate at h
  dsimp only at h
  split at h
  . cases h
  . cases h
  . next ts _ heq =>
    refine ⟨ts, heq, ?_⟩
    split at h
    . cases h
    . next w hw =>
      rw [List.isEmpty_nil, Bool.true_or, if_pos rfl] at h
      cases h
      exact hw

/--
A text that writes a tree with blanks between the tokens has the value of the tree, or its first
fault. A text that has a value writes a tree with this value, where no token but parentheses is
added to the printed ones.
-/
theorem evaluate_tree
    : (∀ (e : Tree) (text : String), Spaced (e.print 1) text.toList →
        evaluate text [] = e.outcome.mapError (Cause.within text)) ∧
      (∀ e : Tree, Spaced (e.print 1) e.text.toList) ∧
      (∀ (text : String) (v : Value), evaluate text [] = .ok v →
        ∃ (e : Tree) (ls : List Lexeme),
          Phrase 1 e ls ∧
          (e.print 1).Sublist ls ∧
          withoutParens ls = withoutParens (e.print 1) ∧
          Spelled ls text.toList ∧
          e.outcome = .ok v) := by
  refine ⟨?_, Tree.spaced_text, ?_⟩
  . intro e text h
    have hphrase : Phrase 1 e (e.print 1) := e.phrase_print (by decide)
    have htokens : tokens text = .ok ((e.print 1).map Lexeme.token) := scan_spaced _ h
    rw [evaluate_of_tokens hphrase.ne_nil htokens, valueOf_phrase hphrase]
  . intro text v h
    -- From the text to its tokens, from these to a phrase, and from the phrase to its tree.
    obtain ⟨ts, htokens, hvalue⟩ := valueOf_of_evaluate h
    obtain ⟨ls, hspelled, rfl⟩ := exists_spelled htokens
    obtain ⟨e, hphrase, houtcome⟩ := exists_phrase_of_valueOf hvalue
    obtain ⟨hsub, hparens⟩ := hphrase.print_sublist
    exact ⟨e, ls, hphrase, hsub, hparens, hspelled, houtcome⟩

def Tree.sumTimesThree : Tree :=
  .binary (.arithmetic .mul)
    (.binary (.arithmetic .add)
      (.literal (.decimal ['1'] rfl (by decide)))
      (.literal (.decimal ['2'] rfl (by decide))))
    (.literal (.decimal ['3'] rfl (by decide)))

theorem evaluate_sumTimesThree
    : Tree.sumTimesThree.text = "( 1 + 2 ) * 3" ∧
      evaluate "( 1 + 2 ) * 3" [] = .ok (.int 9) ∧
      ∃ (e : Tree) (ls : List Lexeme),
        Phrase 1 e ls ∧ Spelled ls "( 1 + 2 ) * 3".toList ∧ e.outcome = .ok (.int 9) := by
  have htext : Tree.sumTimesThree.text = "( 1 + 2 ) * 3" := by decide
  have heval : evaluate "( 1 + 2 ) * 3" [] = .ok (.int 9) := by
    rw [← htext, evaluate_tree.1 Tree.sumTimesThree _ (evaluate_tree.2.1 _)]
    rfl
  obtain ⟨e, ls, hphrase, _, _, hspelled, houtcome⟩ := evaluate_tree.2.2 _ _ heval
  exact ⟨htext, heval, e, ls, hphrase, hspelled, houtcome⟩

end Runbook.Calc
