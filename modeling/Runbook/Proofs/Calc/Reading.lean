import Runbook.Proofs.Calc.Tree
import Runbook.Proofs.Outcome

/-!
This module contains the proof that the evaluator, which applies operators while it reads, computes
the values of the trees whose phrases it reads, and that it reads nothing but phrases.
-/

namespace Runbook.Calc

abbrev Outcome := Except Cause (Value × List Token)

def readOperand (ts : List Token) : Outcome :=
  (operand ts).map fun r => (r.1, r.2.1)

def readChain (level : Nat) (ts : List Token) : Outcome :=
  (chain level ts).map fun r => (r.1, r.2.1)

def readClimb (level : Nat) (lhs : Value) (ts : List Token) : Outcome :=
  (climb level lhs ts).map fun r => (r.1, r.2.1)

theorem readOperand_int (n : Nat) (rest : List Token)
    : readOperand (.int n :: rest) = .ok (.int n, rest) := by
  unfold readOperand
  rw [operand]
  rfl

theorem readOperand_float (d : Number.Decimal) (rest : List Token)
    : readOperand (.float d :: rest) = .ok (.float d, rest) := by
  unfold readOperand
  rw [operand]
  rfl

theorem readOperand_bool (b : Bool) (rest : List Token)
    : readOperand (.bool b :: rest) = .ok (.bool b, rest) := by
  unfold readOperand
  rw [operand]
  rfl

theorem readOperand_op (s : Symbol) (rest : List Token)
    : readOperand (.op s :: rest)
        =
      match s.unary? with
      | none => .error (.token (.op s))
      | some op => do
        let (v, rest) ← readOperand rest
        return (← op.apply v, rest) := by
  unfold readOperand
  rw [operand]
  cases s.unary? with
  | none => rfl
  | some op =>
    dsimp only
    cases operand rest with
    | error e => rfl
    | ok r =>
      obtain ⟨v, rest', h⟩ := r
      dsimp only [Except.map, bind, Except.bind]
      cases op.apply v <;> rfl

theorem readOperand_lparen (rest : List Token)
    : readOperand (.lparen :: rest)
        =
      (do
        match ← readChain 1 rest with
        | (v, .rparen :: rest) => return (v, rest)
        | _ => throw .unclosed) := by
  unfold readOperand readChain
  rw [operand]
  cases chain 1 rest with
  | error e => rfl
  | ok r =>
    obtain ⟨v, rest', h⟩ := r
    cases rest' with
    | nil => rfl
    | cons t rest'' => cases t <;> rfl

theorem readChain_eq (level : Nat) (ts : List Token)
    : readChain level ts
        =
      (do
        let (v, rest) ← readOperand ts
        readClimb level v rest) := by
  unfold readChain readOperand readClimb
  rw [chain]
  cases operand ts with
  | error e => rfl
  | ok r =>
    obtain ⟨v, rest, h⟩ := r
    dsimp only [Except.map, bind, Except.bind]
    cases climb level v rest <;> rfl

theorem readClimb_op {level : Nat} {op : BinaryOp} (h : level ≤ op.level) (lhs : Value)
    (rest : List Token)
    : readClimb level lhs (.op (.binary op) :: rest)
        =
      (do
        let (rhs, rest) ← readChain (op.level + 1) rest
        readClimb level (← op.apply lhs rhs) rest) := by
  unfold readClimb readChain
  rw [climb, if_pos h]
  cases chain (op.level + 1) rest with
  | error e => rfl
  | ok r =>
    obtain ⟨rhs, rest', h⟩ := r
    dsimp only [Except.map, bind, Except.bind]
    cases op.apply lhs rhs with
    | error e => rfl
    | ok v =>
      dsimp only
      cases climb level v rest' <;> rfl

def Stops (level : Nat) (ts : List Token) : Prop :=
  ∀ op, Token.op (.binary op) ∈ ts.head? → op.level < level

theorem readClimb_of_stops {level : Nat} {ts : List Token} (h : Stops level ts) (lhs : Value)
    : readClimb level lhs ts = .ok (lhs, ts) := by
  unfold readClimb
  rw [climb.eq_def]
  split
  . next op rest =>
    have := h op rfl
    rw [if_neg (by omega)]
    rfl
  . rfl

theorem stops_rparen (level : Nat) (rest : List Token) : Stops level (.rparen :: rest) := by
  intro op h
  cases h

theorem stops_of_le {level level' : Nat} {ts : List Token} (hle : level ≤ level')
    (h : Stops level ts) : Stops level' ts :=
  fun op hop => Nat.lt_of_lt_of_le (h op hop) hle

theorem stops_op {op : BinaryOp} {level : Nat} (h : op.level < level) (rest : List Token)
    : Stops level (.op (.binary op) :: rest) := by
  intro op' hop
  cases hop
  exact h

theorem unary?_symbol (op : UnaryOp) : op.symbol.unary? = some op := by
  cases op <;> rfl

theorem readOperand_literal (l : Literal) (rest : List Token)
    : readOperand (l.token :: rest) = .ok (l.value, rest) := by
  unfold Literal.value Spelling.token
  cases l.number with
  | inl n => exact readOperand_int n rest
  | inr d => exact readOperand_float d rest

theorem readChain_of_readOperand {e : Tree} {ts rest : List Token} (level : Nat)
    (h : readOperand ts = e.eval.map (·, rest))
    : readChain level ts = e.eval >>= (readClimb level · rest) := by
  rw [readChain_eq, h]
  cases e.eval <;> rfl

def ReadsOperand (e : Tree) (ls : List Lexeme) : Prop :=
  ∀ rest, readOperand (ls.map Lexeme.token ++ rest) = e.eval.map (·, rest)

def ReadsChain (level : Nat) (e : Tree) (ls : List Lexeme) : Prop :=
  ∀ k ≤ level, ∀ rest, Stops (level + 1) rest →
    readChain k (ls.map Lexeme.token ++ rest) = e.eval >>= (readClimb k · rest)

theorem ReadsOperand.chain {e : Tree} {ls : List Lexeme} (h : ReadsOperand e ls) (level : Nat)
    : ReadsChain level e ls :=
  fun k _ rest _ => readChain_of_readOperand k (h rest)

theorem readsOperand_unary (op : UnaryOp) {e : Tree} {ls : List Lexeme} (h : ReadsOperand e ls)
    : ReadsOperand (.unary op e) (.op op.symbol :: ls) := by
  intro rest
  rw [List.map_cons, List.cons_append, Lexeme.token, readOperand_op, unary?_symbol]
  dsimp only
  rw [h rest, Tree.eval]
  cases e.eval with
  | error c => rfl
  | ok v =>
    dsimp only [Except.map, bind, Except.bind]
    cases op.apply v <;> rfl

theorem readsOperand_parens {e : Tree} {ls : List Lexeme} (h : ReadsChain 1 e ls)
    : ReadsOperand e (.lparen :: ls ++ [.rparen]) := by
  intro rest
  have hchain := h 1 (Nat.le_refl 1) (.rparen :: rest) (stops_rparen _ _)
  rw [List.map_append, List.map_cons, List.append_assoc, List.cons_append, Lexeme.token,
    readOperand_lparen]
  simp only [List.map_cons, List.map_nil, List.cons_append, List.nil_append, Lexeme.token]
  rw [hchain]
  cases e.eval with
  | error c => rfl
  | ok v =>
    dsimp only [bind, Except.bind]
    rw [readClimb_of_stops (stops_rparen 1 rest)]
    rfl

theorem readsChain_binary {op : BinaryOp} {lhs rhs : Tree} {ls rs : List Lexeme}
    (hl : ReadsChain op.level lhs ls) (hr : ReadsChain (op.level + 1) rhs rs)
    : ReadsChain op.level (.binary op lhs rhs) (ls ++ .op (.binary op) :: rs) := by
  intro k hk rest hrest
  rw [List.map_append, List.map_cons, List.append_assoc, List.cons_append, Lexeme.token]
  rw [hl k hk _ (stops_op (Nat.lt_succ_self _) _), Tree.eval]
  cases lhs.eval with
  | error c => rfl
  | ok a =>
    dsimp only [bind, Except.bind]
    rw [readClimb_op hk]
    rw [hr _ (Nat.le_refl _) rest (stops_of_le (Nat.le_succ _) hrest)]
    cases rhs.eval with
    | error c => rfl
    | ok b =>
      dsimp only [bind, Except.bind]
      rw [readClimb_of_stops hrest]

theorem Phrase.reads {level : Nat} {e : Tree} {ls : List Lexeme} (h : Phrase level e ls)
    : (level = Tree.operandLevel → ReadsOperand e ls) ∧ ReadsChain level e ls := by
  have operandCase {e : Tree} {ls : List Lexeme} (h : ReadsOperand e ls)
      : (Tree.operandLevel = Tree.operandLevel → ReadsOperand e ls) ∧
        ReadsChain Tree.operandLevel e ls := ⟨fun _ => h, h.chain _⟩
  induction h with
  | literal l => exact operandCase (readOperand_literal l)
  | bool b => exact operandCase (readOperand_bool b)
  | unary op _ ih => exact operandCase (readsOperand_unary op (ih.1 rfl))
  | parens _ ih => exact operandCase (readsOperand_parens ih.2)
  | binary op _ _ ihl ihr =>
    refine ⟨?_, readsChain_binary ihl.2 ihr.2⟩
    have := op.level_le
    unfold Tree.operandLevel
    omega
  | looser hlevel _ ih =>
    refine ⟨by omega, ?_⟩
    intro k hk rest hrest
    exact ih.2 k (by omega) rest (stops_of_le (Nat.le_succ _) hrest)

theorem Phrase.ne_nil {level : Nat} {e : Tree} {ls : List Lexeme} (h : Phrase level e ls)
    : ls ≠ [] := by
  induction h with
  | looser _ _ ih => exact ih
  | _ => simp

theorem Phrase.loosen {level level' : Nat} {e : Tree} {ls : List Lexeme} (hle : level ≤ level')
    (hlevel : level' ≤ Tree.operandLevel) (h : Phrase level' e ls) : Phrase level e ls := by
  induction hle with
  | refl => exact h
  | step _ ih => exact ih (by omega) (.looser (by omega) h)

theorem Lexeme.eq_rparen {l : Lexeme} (h : l.token = .rparen) : l = .rparen := by
  cases l with
  | rparen => rfl
  | literal l =>
    unfold Lexeme.token Spelling.token at h
    cases hn : l.number <;> simp [hn] at h
  | _ => cases h

/--
A value was read off the front of `ls`, and it is that of a tree which is written there.
-/
def Took (level : Nat) (ls : List Lexeme) (v : Value) (rest : List Token) : Prop :=
  ∃ e taken left, ls = taken ++ left ∧ rest = left.map Lexeme.token ∧ Phrase level e taken ∧
    e.eval = .ok v

theorem stops_of_not_op {l : Lexeme} (h : ∀ op, l ≠ .op (.binary op)) (level : Nat)
    (ts : List Token) : Stops level (l.token :: ts) := by
  intro op hop
  cases l with
  | op s =>
    cases hop
    exact absurd rfl (h op)
  | literal l =>
    unfold Lexeme.token Spelling.token at hop
    cases hn : l.number <;> simp [hn] at hop
  | _ => cases hop

theorem eq_symbol_of_unary? {s : Symbol} {op : UnaryOp} (h : s.unary? = some op)
    : s = op.symbol := by
  unfold Symbol.unary? at h
  split at h <;> cases h <;> rfl

def OperandSound (ls : List Lexeme) : Prop :=
  ∀ v rest, readOperand (ls.map Lexeme.token) = .ok (v, rest) → Took Tree.operandLevel ls v rest

/--
What is read off `ls` as a chain is a phrase, and no operator that could extend it follows.
-/
def ChainSound (ls : List Lexeme) : Prop :=
  ∀ level ≤ Tree.operandLevel, ∀ v rest,
    readChain level (ls.map Lexeme.token) = .ok (v, rest) →
      Took level ls v rest ∧ Stops level rest

/--
If the value so far is that of a phrase, and what follows does not bind tighter than its operator,
then what is read off `ls` extends the phrase.
-/
def ClimbSound (ls : List Lexeme) : Prop :=
  ∀ level tight e₀ before lhs v rest, level ≤ tight → tight ≤ Tree.operandLevel →
    Phrase tight e₀ before → e₀.eval = .ok lhs → Stops (tight + 1) (ls.map Lexeme.token) →
      readClimb level lhs (ls.map Lexeme.token) = .ok (v, rest) →
        ∃ e taken left, ls = taken ++ left ∧ rest = left.map Lexeme.token ∧
          Phrase level e (before ++ taken) ∧ e.eval = .ok v ∧ Stops level rest

theorem operandSound_op {s : Symbol} {ls : List Lexeme} (ih : OperandSound ls)
    : OperandSound (.op s :: ls) := by
  intro v rest h
  rw [List.map_cons, Lexeme.token, readOperand_op] at h
  cases hs : s.unary? with
  | none =>
    rw [hs] at h
    cases h
  | some op =>
    rw [hs] at h
    obtain ⟨⟨w, rest'⟩, hread, h₁⟩ := bind_eq_ok.mp h
    obtain ⟨w', happly, h₂⟩ := bind_eq_ok.mp h₁
    cases h₂
    obtain ⟨e, taken, left, rfl, hrest, hphrase, heval⟩ := ih w rest hread
    obtain rfl := eq_symbol_of_unary? hs
    refine ⟨.unary op e, .op op.symbol :: taken, left, rfl, hrest, .unary op hphrase, ?_⟩
    rw [Tree.eval, heval]
    exact happly

theorem operandSound_lparen {ls : List Lexeme} (ih : ChainSound ls)
    : OperandSound (.lparen :: ls) := by
  intro v rest h
  rw [List.map_cons, Lexeme.token, readOperand_lparen] at h
  obtain ⟨⟨w, rest'⟩, hread, hclose⟩ := bind_eq_ok.mp h
  obtain ⟨⟨e, taken, left, rfl, hrest, hphrase, heval⟩, _⟩ := ih 1 (by decide) w rest' hread
  split at hclose
  . next heq =>
    cases heq
    cases hclose
    cases left with
    | nil => cases hrest
    | cons l left =>
      obtain ⟨hl, hleft⟩ := List.cons.inj hrest
      obtain rfl := Lexeme.eq_rparen hl.symm
      exact ⟨e, .lparen :: taken ++ [.rparen], left, by simp, hleft, .parens hphrase, heval⟩
  . cases hclose

theorem operandSound_of_shorter {ls : List Lexeme}
    (ih : ∀ ls', ls'.length < ls.length → OperandSound ls' ∧ ChainSound ls') : OperandSound ls := by
  cases ls with
  | nil =>
    intro v rest h
    unfold readOperand at h
    rw [List.map_nil, operand] at h
    cases h
  | cons l ls =>
    cases l with
    | op s => exact operandSound_op (ih ls (Nat.lt_succ_self _)).1
    | lparen => exact operandSound_lparen (ih ls (Nat.lt_succ_self _)).2
    | literal l =>
      intro v rest h
      rw [List.map_cons, Lexeme.token, readOperand_literal] at h
      cases h
      exact ⟨.literal l, [.literal l], ls, rfl, rfl, .literal l, rfl⟩
    | bool b =>
      intro v rest h
      rw [List.map_cons, Lexeme.token, readOperand_bool] at h
      cases h
      exact ⟨.bool b, [.bool b], ls, rfl, rfl, .bool b, rfl⟩
    | rparen =>
      intro v rest h
      unfold readOperand at h
      rw [List.map_cons, Lexeme.token, operand] at h
      cases h

theorem chainSound_of_shorter {ls : List Lexeme} (hoperand : OperandSound ls)
    (ih : ∀ ls', ls'.length < ls.length → ClimbSound ls') : ChainSound ls := by
  intro level hlevel v rest h
  rw [readChain_eq] at h
  obtain ⟨⟨lhs, rest'⟩, hread, hclimb⟩ := bind_eq_ok.mp h
  obtain ⟨e₀, before, left, rfl, rfl, hphrase, heval⟩ := hoperand lhs rest' hread
  have hpos := List.length_pos_iff.mpr hphrase.ne_nil
  have hstops : Stops (Tree.operandLevel + 1) (left.map Lexeme.token) := by
    intro op _
    have := op.level_le
    unfold Tree.operandLevel
    omega
  obtain ⟨e, taken, left', rfl, hrest, hphrase, heval, hstops⟩ :=
    ih left (by simp; omega) level _ e₀ before lhs v rest hlevel (Nat.le_refl _) hphrase heval
      hstops hclimb
  exact ⟨⟨e, before ++ taken, left', by simp, hrest, hphrase, heval⟩, hstops⟩

theorem exists_op_of_not_stops {level : Nat} {ls : List Lexeme}
    (h : ¬ Stops level (ls.map Lexeme.token))
    : ∃ op left, ls = .op (.binary op) :: left ∧ level ≤ op.level := by
  cases ls with
  | nil => exact absurd (fun op hop => by cases hop) h
  | cons l left =>
    by_cases hop : ∃ op, l = .op (.binary op)
    . obtain ⟨op, rfl⟩ := hop
      refine ⟨op, left, rfl, Nat.le_of_not_lt ?_⟩
      intro hlt
      exact h (stops_op hlt _)
    . exact absurd (stops_of_not_op (fun op hl => hop ⟨op, hl⟩) _ _) h

theorem climbSound_of_shorter {ls : List Lexeme}
    (ih : ∀ ls', ls'.length < ls.length → ChainSound ls' ∧ ClimbSound ls') : ClimbSound ls := by
  intro level tight e₀ before lhs v rest hlevel htight hphrase heval hstops h
  -- Either nothing is left to climb over, or the next operator takes a chain on its right.
  by_cases hstop : Stops level (ls.map Lexeme.token)
  . rw [readClimb_of_stops hstop] at h
    cases h
    refine ⟨e₀, [], ls, rfl, rfl, ?_, heval, hstop⟩
    rw [List.append_nil]
    exact hphrase.loosen hlevel htight
  . obtain ⟨op, ls, rfl, hlow⟩ := exists_op_of_not_stops hstop
    have hhigh : op.level < tight + 1 := hstops op rfl
    have hop : op.level + 1 ≤ Tree.operandLevel := Nat.succ_le_succ op.level_le
    rw [List.map_cons, Lexeme.token, readClimb_op hlow] at h
    obtain ⟨⟨rhs, rest₁⟩, hread, h₁⟩ := bind_eq_ok.mp h
    obtain ⟨w, happly, h₂⟩ := bind_eq_ok.mp h₁
    obtain ⟨⟨r, taken, left, rfl, rfl, hright, hreval⟩, hstops'⟩ :=
      (ih ls (Nat.lt_succ_self _)).1 (op.level + 1) hop rhs rest₁ hread
    have hshorter : left.length < (.op (.binary op) :: (taken ++ left)).length := by
      simp only [List.length_cons, List.length_append]
      omega
    -- The phrase so far becomes the left operand.
    have hbinary := Phrase.binary op (hphrase.loosen (by omega) htight) hright
    have hbeval : (Tree.binary op e₀ r).eval = .ok w := by
      rw [Tree.eval, heval, hreval]
      exact happly
    obtain ⟨e, taken', left', rfl, hrest, hext, heval', hstops''⟩ :=
      (ih left hshorter).2 level _ _ _ w v rest hlow (by omega) hbinary hbeval hstops' h₂
    refine ⟨e, .op (.binary op) :: (taken ++ taken'), left', by simp, hrest, ?_, heval', hstops''⟩
    simpa using hext

theorem reads_sound (ls : List Lexeme) : OperandSound ls ∧ ChainSound ls ∧ ClimbSound ls := by
  induction hn : ls.length using Nat.strongRecOn generalizing ls with
  | _ n ih =>
    subst hn
    -- Operands are first, since a chain on the same tokens starts with one.
    have ih (ls' : List Lexeme) (h : ls'.length < ls.length) := ih _ h ls' rfl
    have hoperand : OperandSound ls :=
      operandSound_of_shorter fun ls' h => ⟨(ih ls' h).1, (ih ls' h).2.1⟩
    exact ⟨hoperand, chainSound_of_shorter hoperand fun ls' h => (ih ls' h).2.2,
      climbSound_of_shorter fun ls' h => (ih ls' h).2⟩

theorem valueOf_eq (ts : List Token)
    : valueOf ts
        =
      (do
        let (v, rest) ← readChain 1 ts
        match rest with
        | [] => v.collapse
        | t :: _ => throw (.trailing t)) := by
  unfold valueOf readChain
  cases chain 1 ts with
  | error e => rfl
  | ok r => rfl

theorem valueOf_operand {t : Token} {v : Value} (h : readOperand [t] = .ok (v, []))
    : valueOf [t] = v.collapse := by
  rw [valueOf_eq, readChain_eq, h]
  dsimp only [bind, Except.bind]
  rw [readClimb_of_stops (fun op hop => by cases hop)]

theorem valueOf_phrase {e : Tree} {ls : List Lexeme} (h : Phrase 1 e ls)
    : valueOf (ls.map Lexeme.token) = e.outcome := by
  have hread := h.reads.2 1 (Nat.le_refl 1) [] (fun op hop => by cases hop)
  rw [List.append_nil] at hread
  rw [valueOf_eq, hread, Tree.outcome]
  cases e.eval with
  | error c => rfl
  | ok v =>
    dsimp only [bind, Except.bind]
    rw [readClimb_of_stops (fun op hop => by cases hop)]

theorem exists_phrase_of_valueOf {ls : List Lexeme} {v : Value}
    (h : valueOf (ls.map Lexeme.token) = .ok v)
    : ∃ e, Phrase 1 e ls ∧ e.outcome = .ok v := by
  rw [valueOf_eq] at h
  obtain ⟨⟨w, rest⟩, hread, hend⟩ := bind_eq_ok.mp h
  obtain ⟨⟨e, taken, left, rfl, rfl, hphrase, heval⟩, _⟩ :=
    (reads_sound ls).2.1 1 (by decide) w rest hread
  -- Tokens behind the phrase are a fault.
  cases left with
  | nil =>
    refine ⟨e, by simpa using hphrase, ?_⟩
    rw [Tree.outcome, heval]
    exact hend
  | cons l left => cases hend

end Runbook.Calc
