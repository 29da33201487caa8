import Abacus.Cursor

namespace Abacus

inductive Feed
  | lexeme (l : Lexeme) (after : Cursor) (next : Feed)
  | eof (after : Cursor)
  | fault (f : Fault) (after : Cursor)
  deriving DecidableEq, Repr

def Cursor.feed (c : Cursor) : Feed :=
  match _h : c.read with
  | (.lexeme l, d) => .lexeme l d d.feed
  | (.eof, d)      => .eof d
  | (.fault f, d)  => .fault f d
termination_by c.rest.length
decreasing_by exact length_read_lt _h

theorem Cursor.feed_eq (c : Cursor) :
    c.feed = match c.read with
      | (.lexeme l, d) => .lexeme l d d.feed
      | (.eof, d)      => .eof d
      | (.fault f, d)  => .fault f d := by
  rw [feed]
  split <;> simp_all

namespace Feed

def ofText (s : String) : Feed :=
  (Cursor.start s.toList).feed

def lexemes : Feed → List Lexeme
  | lexeme l _ next    => l :: next.lexemes
  | eof _ | fault _ _ => []

def fault? : Feed → Option Fault
  | lexeme _ _ next => next.fault?
  | eof _           => none
  | fault f _       => some f

def tokens : Feed → List Token
  | lexeme l _ next => l.token :: next.tokens
  | eof _           => [.eof]
  | fault _ _       => []

theorem tokens_eq (feed : Feed) :
    feed.tokens = feed.lexemes.map Lexeme.token ++ if feed.fault?.isNone then [.eof] else [] := by
  induction feed <;> simp_all [tokens, lexemes, fault?]

end Feed

end Abacus
