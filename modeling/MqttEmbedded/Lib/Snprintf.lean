import Mathlib.Tactic

/-!
# Formatted printing into a buffer

`snprintf` as the C standard has it, as far as `%d`, `%s` and `%.*s` go: the text that a
format makes of its arguments, and the bytes that a call stores. The size of the buffer is a
`size_t`, so that a negative one stands for an enormous buffer. What is of interest is where
a chain of calls stores, each of which begins where the text of those before it would end.
-/

namespace Snprintf

inductive Conversion where
  | d
  | s
  | dotStarS
  deriving DecidableEq

inductive Piece where
  | literal (c : Char)
  | conversion (c : Conversion)

def parse : List Char → Option (List Piece)
  | [] => some []
  | '%' :: 'd' :: rest => (.conversion .d :: ·) <$> parse rest
  | '%' :: 's' :: rest => (.conversion .s :: ·) <$> parse rest
  | '%' :: '.' :: '*' :: 's' :: rest => (.conversion .dotStarS :: ·) <$> parse rest
  | '%' :: _ => none
  | c :: rest => (.literal c :: ·) <$> parse rest

def charBytes (chars : List Char) : List UInt8 := chars.map fun c => UInt8.ofNat c.toNat

def decimal (n : ℤ) : List UInt8 :=
  let digits := charBytes (Nat.toDigits 10 n.natAbs)
  if n < 0 then charBytes ['-'] ++ digits else digits

/-- An argument; `data` is what can be read from the pointer on, `none` the null pointer. -/
inductive Arg where
  | int (n : ℤ)
  | string (data : Option (List UInt8))
  | chars (precision : ℤ) (data : Option (List UInt8))

namespace Arg

def conversion : Arg → Conversion
  | int _ => .d
  | string _ => .s
  | chars .. => .dotStarS

/-- The bytes before the terminator, if there is one. -/
def terminated (bytes : List UInt8) : Option (List UInt8) :=
  if 0 ∈ bytes then some (bytes.takeWhile (· ≠ 0)) else none

/-- At most `precision` bytes are read, and none after the terminator; a negative precision is
taken as if there were none. -/
def print : Arg → Option (List UInt8)
  | int n => some (decimal n)
  | string data => data.bind terminated
  | chars precision data => data.bind fun bytes =>
    if 0 ≤ precision ∧ precision ≤ bytes.length then
      some ((bytes.take precision.toNat).takeWhile (· ≠ 0))
    else terminated bytes

/-- What the argument points to can be read as far as its conversion reads. -/
def Readable (arg : Arg) : Prop := ∃ text, arg.print = some text

end Arg

def printAll : List Piece → List Arg → Option (List UInt8)
  | [], _ => some []
  | .literal c :: pieces, args => do
    let rest ← printAll pieces args
    some (charBytes [c] ++ rest)
  | .conversion _ :: _, [] => none
  | .conversion c :: pieces, arg :: args =>
    if arg.conversion = c then do
      let text ← arg.print
      let rest ← printAll pieces args
      some (text ++ rest)
    else none

/-- The text of the format, if the arguments are those that it converts. -/
def text (format : String) (args : List Arg) : Option (List UInt8) :=
  (parse format.toList).bind fun pieces => printAll pieces args

def conversions : List Piece → List Conversion
  | [] => []
  | .literal _ :: pieces => conversions pieces
  | .conversion c :: pieces => c :: conversions pieces

theorem exists_printAll : ∀ {pieces : List Piece} {args : List Arg},
    conversions pieces = args.map Arg.conversion → (∀ arg ∈ args, arg.Readable) →
    ∃ text, printAll pieces args = some text
  | [], _, _, _ => ⟨[], rfl⟩
  | .literal c :: pieces, args, hconv, hread => by
    have hconv : conversions pieces = args.map Arg.conversion := hconv
    obtain ⟨rest, hrest⟩ := exists_printAll hconv hread
    exact ⟨charBytes [c] ++ rest, by simp only [printAll, hrest, Option.bind_eq_bind,
      Option.bind_some]⟩
  | .conversion _ :: _, [], hconv, _ => by cases hconv
  | .conversion c :: pieces, arg :: args, hconv, hread => by
    obtain ⟨hc, hconv⟩ := List.cons.inj hconv
    obtain ⟨hhead, htail⟩ := List.forall_mem_cons.mp hread
    obtain ⟨first, hfirst⟩ := hhead
    obtain ⟨rest, hrest⟩ := exists_printAll hconv htail
    exact ⟨first ++ rest, by simp only [printAll, if_pos hc.symm, hfirst, hrest,
      Option.bind_eq_bind, Option.bind_some]⟩

/-- A format whose conversions are those of the arguments has a text, if these can be read. -/
theorem exists_text {format : String} {args : List Arg}
    (hconv : (parse format.toList).map conversions = some (args.map Arg.conversion))
    (hread : ∀ arg ∈ args, arg.Readable) : ∃ bytes, text format args = some bytes := by
  obtain ⟨pieces, hpieces, hconv⟩ := Option.map_eq_some_iff.mp hconv
  obtain ⟨bytes, hbytes⟩ := exists_printAll hconv hread
  exact ⟨bytes, by rw [text, hpieces, Option.bind_some, hbytes]⟩

/-- Bytes, each with the index at which it is stored, in the order of the stores. -/
abbrev Stores := List (UInt8 × ℕ)

def Inside (bound : ℕ) (stores : Stores) : Prop := ∀ store ∈ stores, store.2 < bound

instance (bound : ℕ) (stores : Stores) : Decidable (Inside bound stores) :=
  inferInstanceAs (Decidable (∀ store ∈ stores, store.2 < bound))

/-- An `int` passed for a `size_t`. -/
def sizeT (n : ℤ) : ℕ := (n % 2 ^ 64).toNat

/-- What a call stores: of the text as much as leaves room for the terminator. -/
def stored (index size : ℕ) (text : List UInt8) : Stores :=
  if size = 0 then [] else (text.take (size - 1) ++ [0]).zipIdx index

/-- The stores of one call after the other. Each begins where the texts before it would have
ended in a buffer that is large enough. -/
def chain (bound : ℕ) : ℕ → List (List UInt8) → Stores
  | _, [] => []
  | index, text :: texts =>
    stored index (sizeT (bound - index)) text ++ chain bound (index + text.length) texts

theorem chain_append (bound : ℕ) : ∀ (index : ℕ) (xs ys : List (List UInt8)),
    chain bound index (xs ++ ys) =
      chain bound index xs ++ chain bound (index + (xs.map List.length).sum) ys
  | index, [], ys => rfl
  | index, text :: xs, ys => by
    rw [List.cons_append, chain, chain_append bound _ xs ys, chain, List.append_assoc,
      List.map_cons, List.sum_cons, Nat.add_assoc]

end Snprintf
