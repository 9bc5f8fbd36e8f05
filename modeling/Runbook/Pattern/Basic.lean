import Runbook.Pattern.CharSet

/-!
This module contains regular expressions and the places in a text where their matches end.
-/

namespace Runbook

inductive Look where
  | start
  | finish
  | lineStart
  | lineFinish
  /-- Lines end in a carriage return, a line feed, or both. -/
  | anyLineStart
  | anyLineFinish
  | boundary
  | noBoundary
  | wordStart
  | wordFinish
  /-- No word character stands before. -/
  | wordStartHalf
  /-- No word character stands behind. -/
  | wordFinishHalf
deriving Repr, DecidableEq

namespace Look

/--
Whether the condition holds at `place`. For boundaries `isWord` tells the characters of words.
-/
def holds (isWord : CharSet) (text : Array Char) (place : Nat) (l : Look) : Bool :=
  let before := if place = 0 then none else text[place - 1]?
  let behind := text[place]?
  let wordBefore := before.any isWord.contains
  let wordBehind := behind.any isWord.contains
  match l with
  | start => before.isNone
  | finish => behind.isNone
  | lineStart => before.all (· == '\n')
  | lineFinish => behind.all (· == '\n')
  | anyLineStart => before.all (fun c => c == '\n' || (c == '\r' && behind != some '\n'))
  | anyLineFinish => behind.all (fun c => c == '\r' || (c == '\n' && before != some '\r'))
  | boundary => wordBefore != wordBehind
  | noBoundary => wordBefore == wordBehind
  | wordStart => !wordBefore && wordBehind
  | wordFinish => wordBefore && !wordBehind
  | wordStartHalf => !wordBefore
  | wordFinishHalf => !wordBehind

end Look

inductive Pattern where
  | empty
  | char (set : CharSet)
  | look (l : Look) (isWord : CharSet)
  | seq (a b : Pattern)
  | alt (a b : Pattern)
  /-- At least `least` times `a`, at most `most` times if it is given. -/
  | times (a : Pattern) (least : Nat) (most : Option Nat)
deriving Repr, Inhabited, DecidableEq

namespace Pattern

def mergePlaces : List Nat → List Nat → List Nat
  | [], ns => ns
  | ms, [] => ms
  | m :: ms, n :: ns =>
    if m < n then m :: mergePlaces ms (n :: ns)
    else if n < m then n :: mergePlaces (m :: ms) ns
    else m :: mergePlaces ms ns

def iterate (f : List Nat → List Nat) : Nat → List Nat → List Nat
  | 0, places => places
  | count + 1, places => if places.isEmpty then [] else iterate f count (f places)

/--
The places reached by applying `f` up to `count` times, unless that reaches no more of them.
-/
def reach (f : List Nat → List Nat) : Nat → List Nat → List Nat
  | 0, places => places
  | count + 1, places =>
    let more := mergePlaces places (f places)
    if more.length = places.length then places else reach f count more

/--
The places where a match ends that starts at one of `places`. Matches of a part that is repeated
without limit each take a character, or can be left out, so that there are no more of them than
characters.
-/
def ends (text : Array Char) : Pattern → List Nat → List Nat
  | empty, places => places
  | char set, places =>
    (places.filter fun i => text[i]?.any set.contains).map (· + 1)
  | look l isWord, places => places.filter fun i => l.holds isWord text i
  | seq a b, places => ends text b (ends text a places)
  | alt a b, places => mergePlaces (ends text a places) (ends text b places)
  | times a least most, places =>
    let least' := iterate (ends text a) least places
    let more := match most with
      | some most => min (most - least) (text.size + 1)
      | none => text.size + 1
    reach (ends text a) more least'

def occursIn (p : Pattern) (text : String) : Bool :=
  let text := text.toList.toArray
  !(p.ends text (List.range (text.size + 1))).isEmpty

def size : Pattern → Nat
  | empty => 1
  | char (.range _ _) => 1
  | char .word => 500
  | char _ => 10
  | look _ _ => 1
  | seq a b => a.size + b.size
  | alt a b => a.size + b.size + 1
  | times a least most => max 1 (max least (most.getD (least + 1))) * a.size

theorem mem_mergePlaces {ms ns : List Nat} {i : Nat} :
    i ∈ mergePlaces ms ns ↔ i ∈ ms ∨ i ∈ ns := by
  fun_induction mergePlaces ms ns with
  | case1 ns => simp
  | case2 ms h => simp
  | case3 m ms n ns h ih => simp only [List.mem_cons, ih]; grind
  | case4 m ms n ns h1 h2 ih => simp only [List.mem_cons, ih]; grind
  | case5 m ms n ns h1 h2 ih =>
    have : m = n := by omega
    subst this
    simp only [List.mem_cons, ih]
    grind

end Pattern

end Runbook
