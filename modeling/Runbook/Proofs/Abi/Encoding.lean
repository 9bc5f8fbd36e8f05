import Mathlib.Data.List.Forall2
import Runbook.Proofs.Abi.Word

/-!
This module contains the standard encoding of elementary values, and the proofs that the layout is
this encoding and that decoding it gives the values back.
-/

namespace Runbook.Abi

def AbiType.IsElementary : AbiType → Prop
  | bool | address | function | string | bytes => True
  | uint bits | int bits => 8 ≤ bits ∧ bits ≤ 256
  | fixedBytes size => 1 ≤ size ∧ size ≤ 32
  | array _ | fixedArray _ _ | tuple _ => False

def AbiType.width : AbiType → Nat
  | uint bits | int bits => bits
  | _ => 256

namespace AbiValue

def IsOf : AbiValue → AbiType → Prop
  | bool _, .bool | address _, .address | string _, .string | bytes _, .bytes => True
  | uint _, .uint _ | int _, .int _ => True
  | function bs, .function => bs.length = 24
  | fixedBytes bs, .fixedBytes size => bs.length = size
  | _, _ => False

def FitsBits (bits : Nat) : AbiValue → Prop
  | uint n => n < 2 ^ bits
  | int n => -2 ^ (bits - 1) ≤ n ∧ n < 2 ^ (bits - 1)
  | _ => True

def tail (a : AbiValue) : Bytes :=
  if a.isDynamic then a.encode else []

/--
What stands in the head of argument number `i`: the argument itself, or how far from the start its
tail is.
-/
def head (args : List AbiValue) (i : Nat) (a : AbiValue) : Bytes :=
  if a.isDynamic then word (32 * args.length + ((args.take i).flatMap tail).length) else a.encode

def standard (args : List AbiValue) : Bytes :=
  (args.mapIdx (head args)).flatten ++ args.flatMap tail

variable {a : AbiValue} {t : AbiType}

theorem length_encode_static (ht : t.IsElementary) (ha : a.IsOf t) (hs : a.isDynamic = false) :
    a.encode.length = 32 := by
  cases a with
  | bool | uint | int => exact length_word _
  | address a =>
    show (List.replicate 12 0 ++ a.bytes).length = 32
    rw [List.length_append, List.length_replicate, a.length_bytes]
  | function bs =>
    cases t with
    | function => exact length_padRight_of_le (by rw [ha]; decide) (by rw [ha]; decide)
    | _ => exact ha.elim
  | fixedBytes bs =>
    cases t with
    | fixedBytes size =>
      have hl : bs.length = size := ha
      exact length_padRight_of_le (by rw [hl]; exact ht.1) (by rw [hl]; exact ht.2)
    | _ => exact ha.elim
  | string | bytes => simp [isDynamic] at hs
  | array | fixedArray | tuple => cases t <;> exact ha.elim

section Arguments

variable {ts : List AbiType} {args : List AbiValue}

/--
Values of elementary types, in order, with integers of 256 bits at most.
-/
def AreOf (args : List AbiValue) (ts : List AbiType) : Prop :=
  List.Forall₂ (fun t a => t.IsElementary ∧ a.IsOf t ∧ a.FitsBits 256) ts args

theorem headSize_eq (ht : t.IsElementary) (ha : a.IsOf t) :
    Part.headSize ⟨a.isDynamic, a.encode⟩ = 32 := by
  unfold Part.headSize
  split
  . rfl
  . next hs =>
    apply length_encode_static ht ha
    simpa using hs

theorem headsSize_parts (h : AreOf args ts) : headsSize (parts args) = 32 * args.length := by
  induction h with
  | nil => rfl
  | cons ha _ ih =>
    rw [parts, headsSize, headSize_eq ha.1 ha.2.1, ih, List.length_cons]
    omega

theorem tails_parts (args : List AbiValue) : tails (parts args) = args.flatMap tail := by
  induction args with
  | nil => rfl
  | cons a args ih =>
    rw [parts, tails, ih, List.flatMap_cons, tail]
    cases a.isDynamic <;> rfl

theorem heads_parts (before after : List AbiValue) :
    heads (32 * (before ++ after).length + (before.flatMap tail).length) (parts after)
      = (after.mapIdx fun i => head (before ++ after) (i + before.length)).flatten := by
  induction after generalizing before with
  | nil => rfl
  | cons a after ih =>
    -- The argument moves from those to come to those before, and its tail with it.
    have ih := ih (before ++ [a])
    have hlength : (before ++ [a]).length = before.length + 1 := List.length_append
    rw [List.append_assoc, List.singleton_append, hlength] at ih
    have htake : (before ++ a :: after).take (0 + before.length) = before := by
      rw [Nat.zero_add, List.take_left]
    have hindex (i : Nat) : i + 1 + before.length = i + (before.length + 1) := by omega
    simp only [List.mapIdx_cons, List.flatten_cons, hindex, ← ih, parts, heads]
    rw [head, htake]
    cases hs : a.isDynamic with
    | false => simp [tail, hs]
    | true => simp [tail, hs, Nat.add_assoc]

theorem layout_parts (h : AreOf args ts) : layout (parts args) = standard args := by
  have hheads := heads_parts [] args
  simp only [List.nil_append, List.flatMap_nil, List.length_nil, Nat.add_zero]
    at hheads
  rw [layout, headsSize_parts h, hheads, tails_parts, standard]

end Arguments

section Decoding

variable {buffer : Bytes} {place offset : Nat}

theorem decoder_static (ht : t.IsElementary) (ha : a.IsOf t) (hf : a.FitsBits 256)
    (hs : a.isDynamic = false) (hp : a.encode <+: buffer.drop place) :
    t.decoder 0 buffer place = some (a, place + 32) := by
  have hl := length_encode_static ht ha hs
  -- Every elementary value that is not dynamic takes one word, and is read off it alone.
  cases a with
  | bool b =>
    cases t with
    | bool =>
      rw [AbiType.decoder, Decoder.ofWord_of_prefix _ hp hl]
      cases b <;> rfl
    | _ => exact ha.elim
  | address a =>
    cases t with
    | address =>
      rw [AbiType.decoder, Decoder.ofWord_of_prefix _ hp hl, word_natOfBytes hl, encode,
        Address.ofWord_append]
    | _ => exact ha.elim
  | function bs =>
    cases t with
    | function =>
      have hsize : bs.length = 24 := ha
      rw [AbiType.decoder, Decoder.ofWord_of_prefix _ hp hl, word_natOfBytes hl, encode, ← hsize,
        take_padRight]
    | _ => exact ha.elim
  | uint n =>
    cases t with
    | uint bits =>
      rw [AbiType.decoder, Decoder.ofWord_of_prefix _ hp hl, encode, natOfBytes_word hf]
    | _ => exact ha.elim
  | int n =>
    cases t with
    | int bits =>
      rw [AbiType.decoder, Decoder.ofWord_of_prefix _ hp hl, encode, natToSigned_signedWord hf]
    | _ => exact ha.elim
  | fixedBytes bs =>
    cases t with
    | fixedBytes size =>
      have hsize : bs.length = size := ha
      rw [AbiType.decoder, Decoder.ofWord_of_prefix _ hp hl, word_natOfBytes hl, encode, ← hsize,
        take_padRight]
    | _ => exact ha.elim
  | string | bytes => simp [isDynamic] at hs
  | array | fixedArray | tuple => cases t <;> exact ha.elim

theorem decoder_dynamic (ha : a.IsOf t) (hd : a.isDynamic = true) (hb : buffer.length < 2 ^ 64)
    (hw : word offset <+: buffer.drop place) (hp : a.encode <+: buffer.drop offset) :
    t.decoder 0 buffer place = some (a, place + 32) := by
  have hdepth : 0 < Decoder.maxDepth := by decide
  cases a with
  | string s =>
    cases t with
    | string =>
      rw [encode, ← Text.length_toUTF8] at hp
      rw [AbiType.decoder, Decoder.packed_of_prefix _ hdepth hb hw hp, Text.decodeUtf8_toUTF8,
        String.ofList_toList]
    | _ => exact ha.elim
  | bytes bs =>
    cases t with
    | bytes =>
      rw [encode] at hp
      rw [AbiType.decoder, Decoder.packed_of_prefix _ hdepth hb hw hp]
    | _ => exact ha.elim
  | array | fixedArray | tuple => cases t <;> exact ha.elim
  | _ => simp [isDynamic] at hd

theorem sequence_decoders {args : List AbiValue} {ts : List AbiType} (hb : buffer.length < 2 ^ 64)
    (h : AreOf args ts) (hheads : heads offset (parts args) <+: buffer.drop place)
    (htails : tails (parts args) <+: buffer.drop offset) :
    Decoder.sequence (AbiType.decoders ts) 0 buffer place
      = some (args, place + 32 * args.length) := by
  induction h generalizing place offset with
  | nil => rfl
  | @cons t a ts args ha _ ih =>
    obtain ⟨ht, ha, hf⟩ := ha
    rw [parts, heads] at hheads
    rw [parts, tails] at htails
    have hplace : place + 32 * (a :: args).length = place + 32 + 32 * args.length := by
      rw [List.length_cons]
      omega
    rw [AbiType.decoders, hplace]
    -- A head is the argument itself, or it points to the first of the tails that are left.
    cases hs : a.isDynamic with
    | false =>
      simp only [hs, Bool.false_eq_true, if_false] at hheads htails
      obtain ⟨hhead, hheads⟩ := prefix_drop_append hheads
      rw [length_encode_static ht ha hs] at hheads
      exact Decoder.sequence_cons (decoder_static ht ha hf hs hhead) (ih hheads htails)
    | true =>
      simp only [hs, if_true] at hheads htails
      obtain ⟨hhead, hheads⟩ := prefix_drop_append hheads
      obtain ⟨htail, htails⟩ := prefix_drop_append htails
      rw [length_word] at hheads
      exact Decoder.sequence_cons (decoder_dynamic ha hs hb hhead htail) (ih hheads htails)

theorem length_heads {args : List AbiValue} {ts : List AbiType} (h : AreOf args ts)
    (offset : Nat) : (heads offset (parts args)).length = 32 * args.length := by
  induction h generalizing offset with
  | nil => rfl
  | @cons t a ts args ha _ ih =>
    rw [parts, heads, List.length_cons]
    cases hs : a.isDynamic with
    | false =>
      simp [ih, length_encode_static ha.1 ha.2.1 hs]
      omega
    | true =>
      simp [ih]
      omega

theorem decode?_standard {args : List AbiValue} {ts : List AbiType} (h : AreOf args ts)
    (hb : (standard args).length < 2 ^ 64) : decode? ts (standard args) = some args := by
  rw [← layout_parts h, layout] at hb ⊢
  have hheads : heads (headsSize (parts args)) (parts args) <+:
      (heads (headsSize (parts args)) (parts args) ++ tails (parts args)).drop 0 :=
    List.prefix_append _ _
  have htails : tails (parts args) <+:
      (heads (headsSize (parts args)) (parts args) ++ tails (parts args)).drop
        (headsSize (parts args)) := by
    have hlength := length_heads h (headsSize (parts args))
    rw [← headsSize_parts h] at hlength
    exact ⟨[], by rw [List.append_nil, List.drop_left' hlength]⟩
  rw [decode?, sequence_decoders hb h hheads htails, Option.map_some]

end Decoding

end AbiValue

end Runbook.Abi
