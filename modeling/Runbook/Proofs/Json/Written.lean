import Runbook.Json.Reader
import Runbook.Json.Writer
import Runbook.Proofs.Text.Numeral

/-!
This module contains the reading of JSON texts that were written from values: it gives the values
again, if they have no numbers but whole ones that fit.
-/

namespace Runbook.Json

mutual

def isReadable (depth : Nat) : Json → Bool
  | null | bool _ | string _ => true
  | int n => decide (-2 ^ 63 ≤ n ∧ n < 2 ^ 64)
  | float _ => false
  | array items => depth != 0 && areReadable (depth - 1) items
  | object fields => depth != 0 && areReadableFields (depth - 1) fields

def areReadable (depth : Nat) : List Json → Bool
  | [] => true
  | v :: vs => isReadable depth v && areReadable depth vs

def areReadableFields (depth : Nat) : List (String × Json) → Bool
  | [] => true
  | (_, v) :: fs => isReadable depth v && areReadableFields depth fs

end

/--
The reader has taken the thing off the front, and has left `rest`.
-/
def Takes {α : Type} {cs : List Char} (r : Option (Read α cs)) (a : α) (rest : List Char) : Prop :=
  ∃ h, r = some (a, ⟨rest, h⟩)

variable {α β : Type} {cs cs' rest : List Char}

theorem Takes.map {r : Option (Read α cs')} {a : α} (h : Takes r a rest) (f : α → β)
    (hw : cs'.length ≤ cs.length)
    : Takes (r.map fun r => (r.map f).widen hw : Option (Read β cs)) (f a) rest := by
  obtain ⟨hlt, rfl⟩ := h
  exact ⟨Nat.lt_of_lt_of_le hlt hw, rfl⟩

def Ends (rest : List Char) : Prop :=
  ∀ c, rest.head? = some c → c = ',' ∨ c = ']' ∨ c = '\x7d'

theorem ends_cons {c : Char} (h : c = ',' ∨ c = ']' ∨ c = '\x7d') (rest : List Char)
    : Ends (c :: rest) := by
  rintro c' ⟨⟩
  exact h

section Strings

variable {body : List Char}

theorem takes_letter {e c : Char} (h : Takes (stringBody cs) body rest)
    (hmem : (e, c) ∈ [('"', '"'), ('\\', '\\'), ('n', '\n'), ('r', '\r'), ('t', '\t')])
    : Takes (stringBody ('\\' :: e :: cs)) (c :: body) rest := by
  simp only [List.mem_cons, Prod.mk.injEq, List.not_mem_nil, or_false] at hmem
  rcases hmem with ⟨rfl, rfl⟩ | ⟨rfl, rfl⟩ | ⟨rfl, rfl⟩ | ⟨rfl, rfl⟩ | ⟨rfl, rfl⟩
  all_goals
    rw [stringBody]
    exact h.map (_ :: ·) (by simp; omega)

theorem unit16_control : ∀ n < 32,
    unit16 '0' '0' (Text.hexDigit (n / 16)) (Text.hexDigit (n % 16)) = some n := by
  decide

theorem takes_control {c : Char} (h : Takes (stringBody cs) body rest) (hc : c.toNat < 0x20)
    : Takes
        (stringBody ('\\' :: 'u' :: '0' :: '0' :: Text.hexDigit (c.toNat / 16)
          :: Text.hexDigit (c.toNat % 16) :: cs))
        (c :: body) rest := by
  rw [stringBody, unit16_control c.toNat hc]
  dsimp only
  rw [if_neg (by omega), if_neg (by omega), Char.ofNat_toNat]
  exact h.map (c :: ·) (by simp; omega)

theorem takes_plain {c : Char} (h : Takes (stringBody cs) body rest) (hquote : c ≠ '"')
    (hslash : c ≠ '\\') (hc : ¬ c.toNat < 0x20)
    : Takes (stringBody (c :: cs)) (c :: body) rest := by
  rw [stringBody, if_neg (by simp [hslash, hc])]
  . exact h.map (c :: ·) (by simp)
  . exact hquote
  . rintro a b d e rest' rfl
    exact absurd rfl hslash
  . rintro e rest' rfl
    exact absurd rfl hslash

theorem takes_escape (c : Char) (h : Takes (stringBody cs) body rest)
    : Takes (stringBody (escape c ++ cs)) (c :: body) rest := by
  by_cases hquote : c = '"'
  . subst hquote
    exact takes_letter h (by simp)
  by_cases hslash : c = '\\'
  . subst hslash
    exact takes_letter h (by simp)
  by_cases hn : c = '\n'
  . subst hn
    exact takes_letter h (by simp)
  by_cases hr : c = '\r'
  . subst hr
    exact takes_letter h (by simp)
  by_cases ht : c = '\t'
  . subst ht
    exact takes_letter h (by simp)
  unfold escape
  rw [if_neg hquote, if_neg hslash, if_neg hn, if_neg hr, if_neg ht]
  by_cases hlow : c.toNat < 0x20
  . rw [if_pos hlow]
    exact takes_control h hlow
  . rw [if_neg hlow]
    exact takes_plain h hquote hslash hlow

theorem takes_body (text rest : List Char)
    : Takes (stringBody (text.flatMap escape ++ '"' :: rest)) text rest := by
  induction text with
  | nil =>
    rw [List.flatMap_nil, List.nil_append, stringBody]
    exact ⟨_, rfl⟩
  | cons c text ih =>
    rw [List.flatMap_cons, List.append_assoc]
    exact takes_escape c ih

theorem toList_quote (s : String)
    : (quote s).toList = '"' :: (s.toList.flatMap escape ++ ['"']) := by
  unfold quote
  rw [String.toList_ofList]
  rfl

theorem takes_quote (depth : Nat) (s : String) (rest : List Char)
    : Takes (value depth ((quote s).toList ++ rest)) (.string s) rest := by
  have htext : (quote s).toList ++ rest = '"' :: (s.toList.flatMap escape ++ '"' :: rest) := by
    simp [toList_quote]
  have hs : string s = (string ∘ String.ofList) s.toList := by simp
  rw [htext, value, hs]
  exact (takes_body s.toList rest).map _ (by simp)

end Strings

section Numbers

theorem head?_toDigits {n : Nat} (h : (Nat.toDigits 10 n).head? = some '0') : n = 0 := by
  induction n using Nat.strongRecOn with
  | ind n ih =>
    by_cases hn : n < 10
    . rw [Nat.toDigits_of_lt_base hn] at h
      have hdigits : ∀ m < 10, [m.digitChar].head? = some '0' → m = 0 := by decide
      exact hdigits n hn h
    . rw [Nat.toDigits_of_base_le (by omega) (by omega), List.head?_append] at h
      have hne : (Nat.toDigits 10 (n / 10)).head? = some '0' := by
        cases hhead : (Nat.toDigits 10 (n / 10)).head? with
        | none => exact absurd (List.head?_eq_none_iff.mp hhead) Nat.toDigits_ne_nil
        | some c =>
          rw [hhead] at h
          exact h
      have := ih (n / 10) (by omega) hne
      omega

theorem Ends.not_isDigit (h : Ends rest) : ∀ c ∈ rest.head?, c.isDigit = false := by
  intro c hc
  rcases h c hc with rfl | rfl | rfl
  all_goals rfl

def wholeChars (negative : Bool) (n : Nat) : List Char :=
  (if negative then ['-'] else []) ++ Nat.toDigits 10 n

theorem readNumeral_wholeChars (negative : Bool) (n : Nat) (hrest : Ends rest)
    : readNumeral (wholeChars negative n ++ rest)
        =
      (⟨negative, Nat.toDigits 10 n, none, none⟩, rest) := by
  have hdigits : ∀ c ∈ Nat.toDigits 10 n, c.isDigit = true := fun c => isDigit_of_mem_toDigits
  have htake := Text.takeWhile_append_stop hdigits hrest.not_isDigit
  have hdrop := Text.dropWhile_append_stop hdigits hrest.not_isDigit
  have hzero : ∀ d ds, Nat.toDigits 10 n ≠ '0' :: d :: ds := by
    intro d ds heq
    have hn : n = 0 := head?_toDigits (by rw [heq]; rfl)
    rw [hn] at heq
    cases heq
  have hminus : ∀ cs, Nat.toDigits 10 n ++ rest ≠ '-' :: cs := by
    intro cs heq
    cases hds : Nat.toDigits 10 n with
    | nil => exact Nat.toDigits_ne_nil hds
    | cons d ds =>
      rw [hds] at heq hdigits
      cases heq
      exact absurd (hdigits '-' (List.mem_cons_self ..)) (by decide)
  -- The sign is read first, then the digits, and no mark of a fraction or an exponent follows.
  unfold readNumeral
  split
  next negative' cs hsign =>
  obtain ⟨rfl, rfl⟩ : negative' = negative ∧ cs = Nat.toDigits 10 n ++ rest := by
    cases negative with
    | true =>
      cases hsign
      exact ⟨rfl, rfl⟩
    | false =>
      split at hsign
      . next heq => exact absurd heq (hminus _)
      . cases hsign
        exact ⟨rfl, rfl⟩
  rw [htake, hdrop]
  extract_lets whole cs
  have hwhole : whole = Nat.toDigits 10 n := rfl
  have hcs : cs = rest := rfl
  clear_value whole cs
  split
  next whole' cs' hsplit =>
  obtain ⟨rfl, rfl⟩ : whole' = Nat.toDigits 10 n ∧ cs' = rest := by
    split at hsplit
    . exact absurd hwhole.symm (hzero _ _)
    . obtain ⟨rfl, rfl⟩ := Prod.mk.inj hsplit
      exact ⟨hwhole, hcs⟩
  cases cs' with
  | nil => rfl
  | cons c cs' =>
    rcases hrest c rfl with rfl | rfl | rfl
    all_goals rfl

theorem takes_number {negative : Bool} {n : Nat} {v : Json} (hrest : Ends rest)
    (hv : (⟨negative, Nat.toDigits 10 n, none, none⟩ : Numeral).value? = some v)
    : Takes (number (wholeChars negative n ++ rest)) v rest := by
  have hlt : rest.length < (wholeChars negative n ++ rest).length := by
    have hpos := List.length_pos_iff.mpr (Nat.toDigits_ne_nil (n := n) (b := 10))
    unfold wholeChars
    simp only [List.length_append]
    omega
  refine ⟨hlt, ?_⟩
  unfold number
  rw [readNumeral_wholeChars negative n hrest]
  dsimp only
  rw [dif_pos hlt, hv]
  rfl

theorem value?_whole {n : Nat} (h : n < 2 ^ 64)
    : (⟨false, Nat.toDigits 10 n, none, none⟩ : Numeral).value? = some (.int n) := by
  have hempty : (Nat.toDigits 10 n).isEmpty = false := by simp [Nat.toDigits_ne_nil]
  unfold Numeral.value?
  simp [hempty, Text.digitsValue_toDigits, h]

theorem value?_negative {n : Nat} (hpos : n ≠ 0) (h : n ≤ 2 ^ 63)
    : (⟨true, Nat.toDigits 10 n, none, none⟩ : Numeral).value? = some (.int (-n)) := by
  have hempty : (Nat.toDigits 10 n).isEmpty = false := by simp [Nat.toDigits_ne_nil]
  unfold Numeral.value?
  simp [hempty, Text.digitsValue_toDigits, hpos, h]

theorem exists_wholeChars (n : Int)
    : ∃ negative k, (toString n).toList = wholeChars negative k ∧
        (-2 ^ 63 ≤ n ∧ n < 2 ^ 64 →
          (⟨negative, Nat.toDigits 10 k, none, none⟩ : Numeral).value? = some (.int n)) := by
  cases n with
  | ofNat n =>
    refine ⟨false, n, Nat.toList_repr, ?_⟩
    intro ⟨_, h⟩
    exact value?_whole (by simp at h; omega)
  | negSucc n =>
    refine ⟨true, n + 1, ?_, ?_⟩
    . rw [toString_negSucc, Nat.toList_repr]
      rfl
    . intro ⟨h, _⟩
      exact value?_negative (by omega) (by omega)

theorem exists_cons_wholeChars (negative : Bool) (n : Nat)
    : ∃ c cs, wholeChars negative n = c :: cs ∧ (c.isDigit = true ∨ c = '-') := by
  unfold wholeChars
  cases negative with
  | true => exact ⟨'-', Nat.toDigits 10 n, rfl, .inr rfl⟩
  | false =>
    cases hds : Nat.toDigits 10 n with
    | nil => exact absurd hds Nat.toDigits_ne_nil
    | cons d ds =>
      refine ⟨d, ds, rfl, .inl (isDigit_of_mem_toDigits (n := n) ?_)⟩
      rw [hds]
      exact List.mem_cons_self ..

theorem value_eq_number {c : Char} (depth : Nat) (hc : c.isDigit = true ∨ c = '-')
    : value depth (c :: cs) = number (c :: cs) := by
  rw [value]
  all_goals
    rintro rfl
    exact absurd hc (by decide)

theorem takes_int {n : Int} (depth : Nat) (h : -2 ^ 63 ≤ n ∧ n < 2 ^ 64) (hrest : Ends rest)
    : Takes (value depth ((toString n).toList ++ rest)) (.int n) rest := by
  obtain ⟨negative, k, htext, hvalue⟩ := exists_wholeChars n
  have hnumber := takes_number hrest (hvalue h)
  obtain ⟨c, cs, hcons, hc⟩ := exists_cons_wholeChars negative k
  rw [htext]
  rw [hcons, List.cons_append] at hnumber ⊢
  rw [value_eq_number depth hc]
  exact hnumber

end Numbers

section Values

variable {depth : Nat} {v : Json} {vs : List Json} {fs : List (String × Json)}

theorem takes_items {tail : List Char} (h : Takes (value depth (skipSpace cs)) v tail)
    (htail : tail = ']' :: rest ∧ vs = [] ∨
      ∃ cs', tail = ',' :: cs' ∧ Takes (items depth cs') vs rest)
    : Takes (items depth cs) (v :: vs) rest := by
  obtain ⟨hlt, h⟩ := h
  rw [items, h]
  rcases htail with ⟨rfl, rfl⟩ | ⟨cs', rfl, h'⟩
  . exact ⟨_, rfl⟩
  . exact h'.map _ (by have := skipSpace_length cs; simp at hlt; omega)

theorem takes_members {name tail : List Char} (hname : Takes (stringBody cs) name (':' :: cs'))
    (h : Takes (value depth (skipSpace cs')) v tail)
    (htail : tail = '\x7d' :: rest ∧ fs = [] ∨
      ∃ cs'', tail = ',' :: cs'' ∧ Takes (members depth cs'') fs rest)
    : Takes (members depth ('"' :: cs)) ((String.ofList name, v) :: fs) rest := by
  obtain ⟨hlt, hname⟩ := hname
  obtain ⟨hlt', h⟩ := h
  have hquote : skipSpace ('"' :: cs) = '"' :: cs := rfl
  have hcolon : skipSpace (':' :: cs') = ':' :: cs' := rfl
  rw [members]
  split
  . next cs₁ hcs =>
    cases hquote.symm.trans hcs
    rw [hname]
    dsimp only
    split
    . next cs₂ hcs =>
      cases hcolon.symm.trans hcs
      rw [h]
      rcases htail with ⟨rfl, rfl⟩ | ⟨cs'', rfl, h'⟩
      . exact ⟨_, rfl⟩
      . exact h'.map _ (by have := skipSpace_length cs'; simp at hlt hlt' ⊢; omega)
    . next hcs => exact absurd hcolon (hcs cs')
  . next hcs => exact absurd hquote (hcs cs)

theorem takes_word {w : List Char} (hw : w ≠ []) (v : Json) (rest : List Char)
    : Takes (word w v (w ++ rest)) v rest := by
  have hfront : w.isPrefixOf (w ++ rest) = true := by simp
  have hdrop : (w ++ rest).drop w.length = rest := List.drop_left
  unfold word
  rw [dif_pos ⟨hfront, hw⟩]
  refine ⟨?_, ?_⟩
  . rw [List.length_append]
    have := List.length_pos_iff.mpr hw
    omega
  . simp only [hdrop]

theorem toList_intercalate_cons (s t : String) (ts : List String)
    : (",".intercalate (s :: t :: ts)).toList
        =
      s.toList ++ ',' :: (",".intercalate (t :: ts)).toList := by
  simp [String.toList_intercalate]

theorem toList_array (vs : List Json)
    : (write (.array vs)).toList = '[' :: ((",".intercalate (writeItems vs)).toList ++ [']']) := by
  rw [write, String.toList_append, String.toList_append]
  rfl

theorem toList_object (fs : List (String × Json))
    : (write (.object fs)).toList
        =
      '\x7b' :: ((",".intercalate (writeFields fs)).toList ++ ['\x7d']) := by
  rw [write, String.toList_append, String.toList_append]
  rfl

theorem exists_cons_write (h : v.isReadable depth = true)
    : ∃ c cs, v.write.toList = c :: cs ∧ isSpace c = false ∧ c ≠ ']' := by
  cases v with
  | null => exact ⟨'n', _, rfl, rfl, by decide⟩
  | bool b =>
    cases b with
    | true => exact ⟨'t', _, rfl, rfl, by decide⟩
    | false => exact ⟨'f', _, rfl, rfl, by decide⟩
  | int n =>
    obtain ⟨negative, k, htext, _⟩ := exists_wholeChars n
    obtain ⟨c, cs, hcons, hc⟩ := exists_cons_wholeChars negative k
    refine ⟨c, cs, htext.trans hcons, ?_⟩
    simp only [isSpace, Bool.or_eq_false_iff, beq_eq_false_iff_ne, and_assoc]
    refine ⟨?_, ?_, ?_, ?_, ?_⟩
    all_goals
      rintro rfl
      exact absurd hc (by decide)
  | float x => cases h
  | string s => exact ⟨'"', _, toList_quote s, rfl, by decide⟩
  | array vs => exact ⟨'[', _, toList_array vs, rfl, by decide⟩
  | object fs => exact ⟨'\x7b', _, toList_object fs, rfl, by decide⟩

theorem skipSpace_write (h : v.isReadable depth = true) (rest : List Char)
    : skipSpace (v.write.toList ++ rest) = v.write.toList ++ rest := by
  obtain ⟨c, cs, hcons, hc, _⟩ := exists_cons_write h
  rw [hcons]
  unfold skipSpace
  rw [List.cons_append, List.dropWhile_cons_of_neg (by simp [hc])]

theorem takes_array (h : Takes (items depth cs) vs rest)
    (hcs : ∃ c cs', skipSpace cs = c :: cs' ∧ c ≠ ']')
    : Takes (value (depth + 1) ('[' :: cs)) (.array vs) rest := by
  obtain ⟨c, cs', hskip, hc⟩ := hcs
  rw [value, if_neg (Nat.succ_ne_zero depth)]
  split
  . next heq =>
    cases hskip.symm.trans heq
    exact absurd rfl hc
  . exact h.map Json.array _

theorem takes_object (h : Takes (members depth ('"' :: cs)) fs rest)
    : Takes (value (depth + 1) ('\x7b' :: '"' :: cs)) (.object fs) rest := by
  have hquote : skipSpace ('"' :: cs) = '"' :: cs := rfl
  rw [value, if_neg (Nat.succ_ne_zero depth)]
  split
  . next heq => cases hquote.symm.trans heq
  . exact h.map Json.object _

theorem takes_nil (depth : Nat) (rest : List Char)
    : Takes (value (depth + 1) ('[' :: ']' :: rest)) (.array []) rest ∧
        Takes (value (depth + 1) ('\x7b' :: '\x7d' :: rest)) (.object []) rest := by
  rw [value, value, if_neg (Nat.succ_ne_zero depth), if_neg (Nat.succ_ne_zero depth)]
  exact ⟨⟨_, rfl⟩, ⟨_, rfl⟩⟩

theorem exists_cons_writeItems (h : areReadable depth (v :: vs) = true) (rest : List Char)
    : ∃ c cs, skipSpace ((",".intercalate (writeItems (v :: vs))).toList ++ rest) = c :: cs ∧
        c ≠ ']' := by
  rw [areReadable, Bool.and_eq_true] at h
  obtain ⟨tail, htext⟩ : ∃ tail,
      (",".intercalate (writeItems (v :: vs))).toList = v.write.toList ++ tail := by
    cases vs with
    | nil => exact ⟨[], (List.append_nil _).symm⟩
    | cons v' vs => exact ⟨_, toList_intercalate_cons v.write v'.write (writeItems vs)⟩
  obtain ⟨c, cs, hcons, _, hc⟩ := exists_cons_write h.1
  rw [htext, List.append_assoc, skipSpace_write h.1, hcons]
  exact ⟨c, _, rfl, hc⟩

theorem toList_field (name : String) (v : Json) (tail : List Char)
    : (quote name ++ ":" ++ v.write).toList ++ tail
        =
      '"' :: (name.toList.flatMap escape ++ '"' :: ':' :: (v.write.toList ++ tail)) := by
  simp [String.toList_append, toList_quote]

theorem takes_field {tail : List Char} (name : String) (h : v.isReadable depth = true)
    (hv : Takes (value depth (v.write.toList ++ tail)) v tail)
    (htail : tail = '\x7d' :: rest ∧ fs = [] ∨
      ∃ cs, tail = ',' :: cs ∧ Takes (members depth cs) fs rest)
    : Takes
        (members depth
          ('"' :: (name.toList.flatMap escape ++ '"' :: ':' :: (v.write.toList ++ tail))))
        ((name, v) :: fs) rest := by
  have hbody := takes_body name.toList (':' :: (v.write.toList ++ tail))
  rw [← skipSpace_write h] at hv
  have hfield := takes_members hbody hv htail
  rw [String.ofList_toList] at hfield
  exact hfield

end Values

mutual

theorem takes_write (depth : Nat) (v : Json) (rest : List Char) (h : v.isReadable depth = true)
    (hrest : Ends rest) : Takes (value depth (v.write.toList ++ rest)) v rest := by
  cases v with
  | null =>
    show Takes (value depth ('n' :: ['u', 'l', 'l'] ++ rest)) .null rest
    rw [List.cons_append, value]
    exact takes_word (by decide) .null rest
  | bool b =>
    cases b with
    | true =>
      show Takes (value depth ('t' :: ['r', 'u', 'e'] ++ rest)) (.bool true) rest
      rw [List.cons_append, value]
      exact takes_word (by decide) (.bool true) rest
    | false =>
      show Takes (value depth ('f' :: ['a', 'l', 's', 'e'] ++ rest)) (.bool false) rest
      rw [List.cons_append, value]
      exact takes_word (by decide) (.bool false) rest
  | int n => exact takes_int depth (of_decide_eq_true h) hrest
  | float x => cases h
  | string s => exact takes_quote depth s rest
  | array vs =>
    rw [isReadable, Bool.and_eq_true, bne_iff_ne] at h
    obtain ⟨depth, rfl⟩ := Nat.exists_eq_succ_of_ne_zero h.1
    rw [toList_array, List.cons_append, List.append_assoc]
    cases vs with
    | nil => exact (takes_nil depth rest).1
    | cons v vs =>
      exact takes_array (takes_writeItems depth v vs rest h.2) (exists_cons_writeItems h.2 _)
  | object fs =>
    rw [isReadable, Bool.and_eq_true, bne_iff_ne] at h
    obtain ⟨depth, rfl⟩ := Nat.exists_eq_succ_of_ne_zero h.1
    rw [toList_object, List.cons_append, List.append_assoc]
    cases fs with
    | nil => exact (takes_nil depth rest).2
    | cons f fs =>
      obtain ⟨name, v⟩ := f
      obtain ⟨cs, htext, hfields⟩ := takes_writeFields depth name v fs rest h.2
      rw [List.singleton_append, htext]
      exact takes_object hfields

theorem takes_writeItems (depth : Nat) (v : Json) (vs : List Json) (rest : List Char)
    (h : areReadable depth (v :: vs) = true)
    : Takes (items depth ((",".intercalate (writeItems (v :: vs))).toList ++ ']' :: rest)) (v :: vs)
        rest := by
  rw [areReadable, Bool.and_eq_true] at h
  cases vs with
  | nil =>
    have htext : (",".intercalate (writeItems [v])).toList = v.write.toList := rfl
    apply takes_items _ (.inl ⟨rfl, rfl⟩)
    rw [htext, skipSpace_write h.1]
    exact takes_write depth v _ h.1 (ends_cons (by decide) rest)
  | cons v' vs =>
    have htext := toList_intercalate_cons v.write v'.write (writeItems vs)
    apply takes_items _ (.inr ⟨_, rfl, takes_writeItems depth v' vs rest h.2⟩)
    simp only [writeItems] at htext ⊢
    rw [htext, List.append_assoc, List.cons_append, skipSpace_write h.1]
    exact takes_write depth v _ h.1 (ends_cons (by decide) _)

theorem takes_writeFields (depth : Nat) (name : String) (v : Json) (fs : List (String × Json))
    (rest : List Char) (h : areReadableFields depth ((name, v) :: fs) = true)
    : ∃ cs,
        (",".intercalate (writeFields ((name, v) :: fs))).toList ++ '\x7d' :: rest = '"' :: cs ∧
        Takes (members depth ('"' :: cs)) ((name, v) :: fs) rest := by
  rw [areReadableFields, Bool.and_eq_true] at h
  cases fs with
  | nil =>
    refine ⟨_, toList_field name v _, takes_field name h.1 ?_ (.inl ⟨rfl, rfl⟩)⟩
    exact takes_write depth v _ h.1 (ends_cons (by decide) rest)
  | cons f fs =>
    obtain ⟨name', v'⟩ := f
    obtain ⟨cs, htext', hfields⟩ := takes_writeFields depth name' v' fs rest h.2
    have htext : (",".intercalate (writeFields ((name, v) :: (name', v') :: fs))).toList
          ++ '\x7d' :: rest
        = (quote name ++ ":" ++ v.write).toList ++ ',' :: '"' :: cs := by
      rw [← htext', writeFields, writeFields, toList_intercalate_cons, List.append_assoc]
      rfl
    rw [htext]
    refine ⟨_, toList_field name v _, takes_field name h.1 ?_ (.inr ⟨_, rfl, hfields⟩)⟩
    exact takes_write depth v _ h.1 (ends_cons (by decide) _)

end

theorem parse?_write {v : Json} (h : v.isReadable maxDepth = true) : parse? v.write = some v := by
  have hend : Ends [] := by
    intro c hc
    cases hc
  have htakes : Takes (value maxDepth (skipSpace v.write.toList)) v [] := by
    have hskip := skipSpace_write h []
    have hwrite := takes_write maxDepth v [] h hend
    rw [List.append_nil] at hskip hwrite
    rw [hskip]
    exact hwrite
  obtain ⟨_, hvalue⟩ := htakes
  unfold parse?
  rw [hvalue]
  rfl

end Runbook.Json
