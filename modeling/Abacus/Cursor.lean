import Abacus.Lexeme

namespace Abacus

structure Cursor where
  pos : Nat
  rest : List Char
  deriving DecidableEq, Repr

namespace Cursor

def seek (text : List Char) (p : Nat) : Cursor where
  pos  := p
  rest := text.drop p

def start (text : List Char) : Cursor :=
  seek text 0

def isTerminator (c : Char) : Bool :=
  c = '\n' || c = '\r'

def current? (c : Cursor) : Option Char :=
  c.rest.head?.filter (!isTerminator ·)

def advance (c : Cursor) : Cursor where
  pos  := c.pos + 1
  rest := c.rest.tail

def skip (p : Char → Bool) (c : Cursor) : Cursor where
  pos  := c.pos + (c.rest.takeWhile p).length
  rest := c.rest.dropWhile p

def skipSpaces (c : Cursor) : Cursor :=
  c.skip (· = ' ')

def literal (c : Cursor) : Except Fault Nat × Cursor :=
  let digits := c.rest.takeWhile Char.isDigit
  if Numeral.Readable digits then
    (.ok (Numeral.value digits), c.skip Char.isDigit)
  else
    (.error (.literal digits.length (c.pos + 1)), c.skip Char.isDigit)

-- A character that starts no lexeme is not passed, so that reading on gives the same fault again.
-- In the same way the end of the line is never passed.
def readHere (c : Cursor) : Reading × Cursor :=
  match c.current? with
  | none   => (.eof, c)
  | some x =>
    if x.isDigit then
      match c.literal with
      | (.ok n, c)    => (.lexeme (.integer n), c)
      | (.error f, c) => (.fault f, c)
    else
      match Operator.ofSign? x with
      | some o => (.lexeme (.operator o), c.advance)
      | none   => (.fault (.character x (c.pos + 1)), c)

def read (c : Cursor) : Reading × Cursor :=
  c.skipSpaces.readHere

theorem advance_seek (text : List Char) (p : Nat) : (seek text p).advance = seek text (p + 1) := by
  simp [advance, seek]

theorem length_skip_le (c : Cursor) (q : Char → Bool) :
    (c.skip q).rest.length ≤ c.rest.length :=
  (List.dropWhile_suffix q).length_le

theorem length_skip_lt {c : Cursor} {q : Char → Bool} {x : Char}
    (h : c.rest.head? = some x) (hq : q x) : (c.skip q).rest.length < c.rest.length := by
  obtain ⟨pos, _ | ⟨y, rest⟩⟩ := c
  · simp at h
  · obtain rfl : y = x := by simpa using h
    simpa [skip, hq] using Nat.lt_succ_of_le (List.dropWhile_suffix q).length_le

theorem literal_snd (c : Cursor) : c.literal.2 = c.skip Char.isDigit := by
  simp only [literal]
  split <;> rfl

theorem head?_of_current? {c : Cursor} {x : Char} (h : c.current? = some x) :
    c.rest.head? = some x :=
  (Option.filter_eq_some_iff.mp h).1

theorem length_readHere_lt {c d : Cursor} {l : Lexeme} (h : c.readHere = (.lexeme l, d)) :
    d.rest.length < c.rest.length := by
  unfold readHere at h
  split at h
  · simp at h
  · rename_i x hx
    have hx := head?_of_current? hx
    split at h
    case isTrue hd =>
      have := c.literal_snd
      split at h <;> simp_all
      exact h.2 ▸ length_skip_lt hx hd
    case isFalse =>
      split at h <;> simp at h
      obtain ⟨-, rfl⟩ := h
      cases hr : c.rest <;> simp_all [advance]

theorem length_read_lt {c d : Cursor} {l : Lexeme} (h : c.read = (.lexeme l, d)) :
    d.rest.length < c.rest.length :=
  Nat.lt_of_lt_of_le (length_readHere_lt h) (c.length_skip_le _)

end Cursor

end Abacus
