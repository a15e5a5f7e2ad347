import Mathlib.Data.List.Basic
import Mathlib.Algebra.Group.Int

/-! # Library behaviour shared by the lab programs

`strconv` number parsing and printing as the programs call it, Kafka record
headers, the committed offset of a sarama consumer-group session, and the list facts
the goroutine models share. Record keys, values and header values are modelled as
strings: the programs compare them with ASCII literals and parse decimal numbers out of
them, and nothing else.
-/

namespace GoLabs

/-- Value of a list of decimal digits, most significant first. -/
def digitsValue (ds : List Char) : Nat :=
  ds.foldl (fun acc c => 10 * acc + (c.toNat - '0'.toNat)) 0

/-- The syntax `strconv.Atoi` and `strconv.ParseInt(s, 10, 64)` accept: an optional
    sign and at least one decimal digit. The range check is left to the callers. -/
def parseDecimal (s : String) : Option Int :=
  let (neg, ds) := match s.toList with
    | '-' :: ds => (true, ds)
    | '+' :: ds => (false, ds)
    | ds => (false, ds)
  if ds ≠ [] ∧ ds.all Char.isDigit then
    some (if neg then -(digitsValue ds : Int) else digitsValue ds)
  else none

/-- `strconv.Atoi` with a 64-bit `int`: `none` is its syntax or range error. -/
def atoi (s : String) : Option Int :=
  (parseDecimal s).filter fun v => -2 ^ 63 ≤ v ∧ v < 2 ^ 63

/-- `id, _ := strconv.ParseInt(s, 10, 64)`: the error is dropped, so a syntax error
    reads as `0` and an out-of-range number as the bound it passed. -/
def parseInt (s : String) : Int :=
  match parseDecimal s with
  | some v => max (-2 ^ 63) (min v (2 ^ 63 - 1))
  | none => 0

/-- `strconv.Itoa`. -/
def itoa (n : Int) : String := toString n

example : atoi (itoa 1) = some 1 ∧ atoi "+7" = some 7 ∧ atoi "" = none ∧ atoi "1x" = none := by
  decide

/-- `strings.HasPrefix(s, p)`. UTF-8 being prefix-free at character boundaries, the
    bytes of `p` begin those of `s` exactly when its characters begin those of `s`. -/
def hasPrefix (s p : String) : Bool := s.toList.take p.length = p.toList

/-- A Kafka record header (`sarama.RecordHeader`, `kafka.Header`). -/
structure Header where
  key : String
  value : String
  deriving Repr, DecidableEq

/-- `sess.MarkMessage(m, _)`: sarama's offset manager moves the partition's committed
    offset to `m.Offset + 1` and never moves it back. -/
def markMessage (committed offset : Nat) : Nat := max committed (offset + 1)

theorem le_markMessage (committed offset : Nat) : committed ≤ markMessage committed offset :=
  le_max_left _ _

theorem lt_markMessage (committed offset : Nat) : offset < markMessage committed offset :=
  Nat.lt_of_lt_of_le (Nat.lt_succ_self _) (le_max_right _ _)

theorem markMessage_of_le {committed offset : Nat} (h : committed ≤ offset) :
    markMessage committed offset = offset + 1 :=
  max_eq_right (Nat.le_succ_of_le h)

/-! ## Goroutines as a list of states

The concurrent programs are modelled with one state per goroutine, in the order they were
started, and a step moves one of them. These are the facts about a list whose one element
changes that their invariants and schedules use. -/

section Goroutines

variable {α : Type}

/-- Replacing the element `b` at `i` by `a` trades `b`'s count for `a`'s. -/
theorem countP_set_add (p : α → Bool) {l : List α} {i : Nat} {b : α} (h : l[i]? = some b)
    (a : α) : (l.set i a).countP p + (if p b then 1 else 0) = l.countP p + (if p a then 1 else 0) := by
  induction l generalizing i with
  | nil => simp at h
  | cons x l ih =>
    cases i with
    | zero =>
      obtain rfl : x = b := by simpa using h
      simp only [List.set_cons_zero, List.countP_cons]
      omega
    | succ i =>
      simp only [List.set_cons_succ, List.countP_cons]
      have := ih (by simpa using h)
      omega

/-- Replacing the list `b` at `i` by `a` trades `b`'s elements for `a`'s in the flattened list. -/
theorem length_flatten_set_add {l : List (List α)} {i : Nat} {b : List α} (h : l[i]? = some b) (a : List α) :
    (l.set i a).flatten.length + b.length = l.flatten.length + a.length := by
  induction l generalizing i with
  | nil => simp at h
  | cons x l ih =>
    cases i with
    | zero =>
      obtain rfl : x = b := by simpa using h
      simp only [List.set_cons_zero, List.flatten_cons, List.length_append]
      omega
    | succ i =>
      simp only [List.set_cons_succ, List.flatten_cons, List.length_append]
      have := ih (by simpa using h)
      omega

/-- Replacing an element by one with the same image keeps the list's image. -/
theorem map_set_of_eq {β : Type} (f : α → β) {l : List α} {i : Nat} {b : α} (h : l[i]? = some b) {a : α}
    (hab : f a = f b) : (l.set i a).map f = l.map f := by
  induction l generalizing i with
  | nil => simp at h
  | cons x l ih =>
    cases i with
    | zero =>
      obtain rfl : x = b := by simpa using h
      simp [hab]
    | succ i => simp [ih (by simpa using h)]

variable (a : Nat) (A B C : α) (l : List α)

theorem getElem?_replicate_append : (List.replicate a A ++ B :: l)[a]? = some B := by
  rw [List.getElem?_append_right (by simp)]; simp

theorem set_replicate_append : (List.replicate a A ++ B :: l).set a C = List.replicate a A ++ C :: l := by
  simp [List.set_append_right]

theorem replicate_append_cons : List.replicate a A ++ A :: l = List.replicate (a + 1) A ++ l := by
  rw [List.replicate_succ', List.append_assoc, List.singleton_append]

end Goroutines

end GoLabs
