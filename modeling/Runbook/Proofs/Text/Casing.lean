import Runbook.Proofs.Text.Blank
import Runbook.Text.Casing

/-!
This module contains what turning a text into small letters does to ASCII text, and which texts it
turns into such.
-/

namespace Runbook.Text

theorem forall_ascii {p : Char → Prop} (h : ∀ n < 128, p (Char.ofNat n)) {c : Char}
    (hc : c.toNat < 128) : p c := by
  have := h c.toNat hc
  rwa [Char.ofNat_toNat] at this

theorem toLower_of_not_ascii {c : Char} (hc : ¬ c.toNat < 128) : c.toLower = c := by
  unfold Char.toLower
  split
  . next hupper =>
    have hle := UInt32.le_iff_toNat_le.mp hupper.2
    exact absurd (Nat.lt_of_le_of_lt hle (by decide)) hc
  . rfl

theorem apply_toLower {α : Type} {f : Char → α}
    (h : ∀ n < 128, f (Char.ofNat n).toLower = f (Char.ofNat n)) (c : Char)
    : f c.toLower = f c := by
  by_cases hascii : c.toNat < 128
  . exact forall_ascii (p := fun c => f c.toLower = f c) h hascii
  . rw [toLower_of_not_ascii hascii]

theorem isBlank_toLower (c : Char) : isBlank c.toLower = isBlank c :=
  apply_toLower (by decide) c

theorem isDigit_toLower (c : Char) : c.toLower.isDigit = c.isDigit :=
  apply_toLower (by decide) c

theorem isHexDigit_toLower (c : Char) : isHexDigit c.toLower = isHexDigit c :=
  apply_toLower (by decide) c

theorem isAlpha_toLower (c : Char) : c.toLower.isAlpha = c.isAlpha :=
  apply_toLower (by decide) c

theorem isAlphanum_toLower (c : Char) : c.toLower.isAlphanum = c.isAlphanum := by
  unfold Char.isAlphanum
  rw [isAlpha_toLower, isDigit_toLower]

theorem digitValue_toLower (c : Char) : digitValue c.toLower = digitValue c :=
  apply_toLower (by decide) c

theorem digitsValue_map_toLower (radix : Nat) (cs : List Char)
    : digitsValue radix (cs.map Char.toLower) = digitsValue radix cs := by
  unfold digitsValue
  rw [List.foldl_map]
  simp only [digitValue_toLower]

theorem toLower_eq_iff {c d : Char} (hd : d.isAlpha = false) : c.toLower = d ↔ c = d := by
  have hsmall : c.isAlpha = false → c.toLower = c := by
    intro hc
    unfold Char.toLower
    rw [dif_neg]
    intro hupper
    have hletter : c.isUpper = true := decide_eq_true hupper
    have halpha : c.isAlpha = (c.isUpper || c.isLower) := rfl
    rw [halpha, hletter, Bool.true_or] at hc
    cases hc
  constructor
  . rintro rfl
    rw [isAlpha_toLower] at hd
    exact (hsmall hd).symm
  . rintro rfl
    exact hsmall hd

theorem mapRuns_of_ascii {c : Char} (hc : c.toNat < 128) : mapRuns lowerRuns c = c.toLower := by
  apply forall_ascii (p := fun c => mapRuns lowerRuns c = c.toLower) _ hc
  decide +kernel

theorem lowerChars_of_ascii {cs : List Char} (h : ∀ c ∈ cs, c.toNat < 128) (before : List Char)
    : lowerChars before cs = cs.map Char.toLower := by
  induction cs generalizing before with
  | nil => rfl
  | cons c cs ih =>
    rw [List.forall_mem_cons] at h
    have hsigma : c ≠ Char.ofNat 0x3A3 := by
      rintro rfl
      exact absurd h.1 (by decide)
    have hdotted : c ≠ Char.ofNat 0x130 := by
      rintro rfl
      exact absurd h.1 (by decide)
    rw [lowerChars, if_neg hsigma, lowerChar, if_neg hdotted, mapRuns_of_ascii h.1, ih h.2]
    rfl

def isPlain (c : Char) : Bool :=
  (c.toNat < 128 && c != 'k') || isBlank c

def leavesPlain : CaseRun → Bool := fun (first, last, _, shift) =>
  128 ≤ first + shift && blankCodes.all (fun n => n < first + shift || last + shift < n)
    && (last + shift < 0xD800 || (0xDFFF < first + shift && last + shift < 0x110000))

theorem not_isPlain_of_leavesPlain {first last step : Nat} {shift : Int} {n : Nat}
    (h : leavesPlain (first, last, step, shift)) (hfirst : first ≤ n) (hlast : n ≤ last)
    : isPlain (Char.ofNat (n + shift).toNat) = false := by
  simp only [leavesPlain, Bool.and_eq_true, Bool.or_eq_true, decide_eq_true_eq,
    List.all_eq_true] at h
  obtain ⟨⟨hascii, hblanks⟩, hvalid⟩ := h
  have hcode : (Char.ofNat (n + shift).toNat).toNat = (n + shift).toNat := by
    have hcode : (n + shift).toNat.isValidChar := by
      unfold Nat.isValidChar
      omega
    rw [Char.ofNat, dif_pos hcode]
    rfl
  have hblank : isBlank (Char.ofNat (n + shift).toNat) = false := by
    by_contra hb
    rw [Bool.not_eq_false] at hb
    have := hblanks _ (mem_blankCodes hb)
    omega
  have : ¬ (n + shift).toNat < 128 := by omega
  simp [isPlain, hcode, hblank, this]

theorem lowerRuns_plain
    : ∀ r ∈ lowerRuns,
        leavesPlain r ∨ r = (0x41, 0x5A, 1, 32) ∨ r = (0x212A, 0x212A, 1, -8383) := by
  decide +kernel

theorem mapRuns_of_isPlain {c : Char} (h : isPlain (mapRuns lowerRuns c))
    : mapRuns lowerRuns c = c.toLower := by
  by_cases hascii : c.toNat < 128
  . exact mapRuns_of_ascii hascii
  . unfold mapRuns at h ⊢
    dsimp only at h ⊢
    split at h
    . next first last step shift hfind =>
      have hcovers := List.find?_some hfind
      simp only [Bool.and_eq_true, decide_eq_true_eq] at hcovers
      obtain ⟨⟨hfirst, hlast⟩, _⟩ := hcovers
      rcases lowerRuns_plain _ (List.mem_of_find?_eq_some hfind) with hleaves | hrun | hrun
      . rw [not_isPlain_of_leavesPlain hleaves hfirst hlast] at h
        cases h
      . cases hrun
        omega
      . cases hrun
        have hkelvin : c.toNat = 0x212A := Nat.le_antisymm hlast hfirst
        rw [hkelvin] at h
        exact absurd h (by decide)
    . rw [toLower_of_not_ascii hascii]

theorem lowerChars_of_isPlain {before cs : List Char} (h : ∀ c ∈ lowerChars before cs, isPlain c)
    : lowerChars before cs = cs.map Char.toLower := by
  induction cs generalizing before with
  | nil => rfl
  | cons c cs ih =>
    rw [lowerChars] at h ⊢
    rw [List.forall_mem_append] at h
    rw [ih h.2, List.map_cons]
    -- The small forms of a capital sigma and of a dotted capital I are not plain.
    have hsigma : c ≠ Char.ofNat 0x3A3 := by
      rintro rfl
      have hsmall := h.1
      rw [if_pos rfl] at hsmall
      split at hsmall
      . exact absurd (hsmall _ (List.mem_singleton_self _)) (by decide)
      . exact absurd (hsmall _ (List.mem_singleton_self _)) (by decide)
    have hdotted : c ≠ Char.ofNat 0x130 := by
      rintro rfl
      have hsmall := h.1
      rw [if_neg (by decide), lowerChar, if_pos rfl] at hsmall
      exact absurd (hsmall (Char.ofNat 0x307) (by decide)) (by decide)
    have hplain := h.1
    rw [if_neg hsigma, lowerChar, if_neg hdotted, List.forall_mem_singleton] at hplain
    rw [if_neg hsigma, lowerChar, if_neg hdotted, mapRuns_of_isPlain hplain]
    rfl

theorem toLower_toLower_of_ascii {c : Char} (hc : c.toNat < 128)
    : c.toLower.toLower = c.toLower := by
  apply forall_ascii (p := fun c => c.toLower.toLower = c.toLower) _ hc
  decide

theorem toLower_of_not_isPlain {c : Char} (h : isPlain c = false) : c.toLower = c := by
  by_cases hc : c = 'k'
  . rw [hc]
    decide
  . refine toLower_of_not_ascii ?_
    intro hascii
    simp [isPlain, hascii, hc] at h

theorem toLower_mapRuns (c : Char) : (mapRuns lowerRuns c).toLower = mapRuns lowerRuns c := by
  by_cases hplain : isPlain (mapRuns lowerRuns c) = true
  . rw [mapRuns_of_isPlain hplain]
    by_cases hascii : c.toNat < 128
    . exact toLower_toLower_of_ascii hascii
    . rw [toLower_of_not_ascii hascii, toLower_of_not_ascii hascii]
  . exact toLower_of_not_isPlain (by simpa using hplain)

theorem toLower_of_mem_lowerChars {before cs : List Char} {c : Char} (h : c ∈ lowerChars before cs)
    : c.toLower = c := by
  induction cs generalizing before with
  | nil => cases h
  | cons d cs ih =>
    rw [lowerChars] at h
    cases List.mem_append.mp h with
    | inl hsmall =>
      split at hsmall
      . split at hsmall
        . rw [List.mem_singleton.mp hsmall]
          decide
        . rw [List.mem_singleton.mp hsmall]
          decide
      . unfold lowerChar at hsmall
        split at hsmall
        . cases List.mem_cons.mp hsmall with
          | inl heq =>
            rw [heq]
            decide
          | inr hmem =>
            rw [List.mem_singleton.mp hmem]
            decide
        . rw [List.mem_singleton.mp hsmall]
          exact toLower_mapRuns d
    | inr hmem => exact ih hmem

theorem map_toLower_lower (s : String) : (lower s).toList.map Char.toLower = (lower s).toList := by
  rw [lower, String.toList_ofList]
  exact (List.map_congr_left fun c => toLower_of_mem_lowerChars).trans (List.map_id _)

theorem eqIgnoringAsciiCase_lower (s t : String)
    : eqIgnoringAsciiCase (lower s) t = true ↔ t.toList.map Char.toLower = (lower s).toList := by
  rw [eqIgnoringAsciiCase, map_toLower_lower, beq_iff_eq, eq_comm]

theorem eqIgnoringAsciiCase_lower_of_ascii {s : String} (h : ∀ c ∈ s.toList, c.toNat < 128)
    : eqIgnoringAsciiCase (lower s) s = true := by
  rw [eqIgnoringAsciiCase_lower, lower, String.toList_ofList, lowerChars_of_ascii h]

end Runbook.Text
