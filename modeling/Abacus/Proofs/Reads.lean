import Abacus.Feed
import Mathlib.Data.List.TakeWhile

namespace Abacus

inductive Spelling : List Char → Lexeme → Prop
  | operator (o : Operator) : Spelling [o.sign] (.operator o)
  | integer (digits : List Char) (hd : ∀ x ∈ digits, x.isDigit) (hr : Numeral.Readable digits) :
      Spelling digits (.integer (Numeral.value digits))

def Lexeme.IsInteger : Lexeme → Prop
  | integer _  => True
  | operator _ => False

def Lexeme.Writable : Lexeme → Prop
  | integer n  => Numeral.Writable n
  | operator _ => True

@[simp]
theorem Lexeme.writable_integer {n : Nat} : (integer n).Writable ↔ Numeral.Writable n :=
  .rfl

@[simp]
theorem Lexeme.writable_operator {o : Operator} : (operator o).Writable :=
  trivial

def Ended (rest : List Char) : Prop :=
  ∀ x ∈ rest.head?, Cursor.isTerminator x

def Undigited (rest : List Char) : Prop :=
  ∀ x ∈ rest.head?, x.isDigit = false

def Spaces (s : List Char) : Prop :=
  ∀ x ∈ s, x = ' '

structure Foreign (x : Char) : Prop where
  not_space      : x ≠ ' '
  not_terminator : Cursor.isTerminator x = false
  not_digit      : x.isDigit = false
  not_sign       : Operator.ofSign? x = none

inductive Reads (c : Cursor) : Reading → Cursor → Prop
  | lexeme (s w : List Char) (d : Cursor) (hs : Spaces s) (hw : Spelling w l)
      (hm : l.IsInteger → Undigited d.rest)
      (hr : c.rest = s ++ (w ++ d.rest)) (hp : d.pos = c.pos + s.length + w.length) :
      Reads c (.lexeme l) d
  | eof (s : List Char) (d : Cursor) (hs : Spaces s) (he : Ended d.rest)
      (hr : c.rest = s ++ d.rest) (hp : d.pos = c.pos + s.length) :
      Reads c .eof d
  | literal (s w : List Char) (d : Cursor) (hs : Spaces s) (hd : ∀ x ∈ w, x.isDigit)
      (hl : Numeral.maxDigits < w.length) (hm : Undigited d.rest)
      (hr : c.rest = s ++ (w ++ d.rest)) (hp : d.pos = c.pos + s.length + w.length) :
      Reads c (.fault (.literal w.length (c.pos + s.length + 1))) d
  | character (s : List Char) (x : Char) (tl : List Char) (d : Cursor) (hs : Spaces s)
      (hx : Foreign x) (ht : d.rest = x :: tl) (hr : c.rest = s ++ d.rest)
      (hp : d.pos = c.pos + s.length) :
      Reads c (.fault (.character x (d.pos + 1))) d

namespace Text

theorem exists_span (p : Char → Bool) (text : List Char) :
    ∃ s rest, text = s ++ rest ∧ (∀ x ∈ s, p x) ∧ ∀ x ∈ rest.head?, p x = false := by
  refine ⟨text.takeWhile p, text.dropWhile p, by simp, fun _ => List.mem_takeWhile_imp, ?_⟩
  intro x hx
  have := List.head?_dropWhile_not p text
  simpa [Option.mem_def.mp hx] using this

theorem takeWhile_eq {p : Char → Bool} {s rest : List Char} (hs : ∀ x ∈ s, p x)
    (hr : ∀ x ∈ rest.head?, p x = false) : (s ++ rest).takeWhile p = s := by
  cases rest <;> simp_all

theorem dropWhile_eq {p : Char → Bool} {s rest : List Char} (hs : ∀ x ∈ s, p x)
    (hr : ∀ x ∈ rest.head?, p x = false) : (s ++ rest).dropWhile p = rest := by
  cases rest <;> simp_all

end Text

namespace Cursor

theorem not_terminator_of_isDigit {x : Char} (h : x.isDigit) : isTerminator x = false := by
  simp only [isTerminator, Bool.or_eq_false_iff, decide_eq_false_iff_not]
  constructor <;> intro hx <;> subst hx <;> simp at h

theorem skip_eq {c d : Cursor} {p : Char → Bool} {s : List Char} (hs : ∀ x ∈ s, p x)
    (hd : ∀ x ∈ d.rest.head?, p x = false) (hr : c.rest = s ++ d.rest)
    (hp : d.pos = c.pos + s.length) : c.skip p = d := by
  rw [skip, hr, Text.takeWhile_eq hs hd, Text.dropWhile_eq hs hd, ←hp]

theorem skipSpaces_eq {c d : Cursor} {s : List Char} (hs : Spaces s) (hd : d.rest.head? ≠ some ' ')
    (hr : c.rest = s ++ d.rest) (hp : d.pos = c.pos + s.length) : c.skipSpaces = d := by
  refine skip_eq (by simpa [Spaces] using hs) (fun x hx => ?_) hr hp
  simp only [decide_eq_false_iff_not]
  exact fun h => hd <| h ▸ hx

theorem current?_eq {c : Cursor} {x : Char} {tl : List Char} (hr : c.rest = x :: tl)
    (hx : isTerminator x = false) : c.current? = some x := by
  simp [current?, hr, hx]

theorem current?_eq_none {c : Cursor} (h : Ended c.rest) : c.current? = none := by
  simpa [current?, Option.filter_eq_none_iff, Ended] using h

theorem readHere_operator {c d : Cursor} {o : Operator} (hr : c.rest = o.sign :: d.rest)
    (hp : d.pos = c.pos + 1) : c.readHere = (.lexeme (.operator o), d) := by
  have ht : isTerminator o.sign = false := by cases o <;> rfl
  have ha : c.advance = d := by
    obtain ⟨pos, rest⟩ := d
    simp_all [advance]
  simp [readHere, current?_eq hr ht, o.sign_not_isDigit, ha]

theorem literal_eq {c d : Cursor} {w : List Char} (hd : ∀ x ∈ w, x.isDigit) (hm : Undigited d.rest)
    (hr : c.rest = w ++ d.rest) (hp : d.pos = c.pos + w.length) :
    c.literal =
      (if Numeral.Readable w then .ok (Numeral.value w)
        else .error (.literal w.length (c.pos + 1)), d) := by
  simp only [literal, hr, Text.takeWhile_eq hd hm, skip_eq hd hm hr hp]
  split <;> rfl

theorem readHere_digits {c d : Cursor} {w : List Char} (hw : w ≠ []) (hd : ∀ x ∈ w, x.isDigit)
    (hm : Undigited d.rest) (hr : c.rest = w ++ d.rest) (hp : d.pos = c.pos + w.length) :
    c.readHere =
      (if Numeral.Readable w then .lexeme (.integer (Numeral.value w))
        else .fault (.literal w.length (c.pos + 1)), d) := by
  have ⟨x, tl, hw⟩ := List.exists_cons_of_ne_nil hw
  subst hw
  have hx : x.isDigit := hd x (by simp)
  have hc := current?_eq (c := c) (by simpa using hr) (not_terminator_of_isDigit hx)
  simp only [readHere, hc, hx, literal_eq hd hm hr hp, if_true]
  by_cases hn : Numeral.Readable (x :: tl) <;> simp [hn]

theorem readHere_eof {c : Cursor} (h : Ended c.rest) : c.readHere = (.eof, c) := by
  simp [readHere, current?_eq_none h]

theorem readHere_character {c : Cursor} {x : Char} {tl : List Char} (hx : Foreign x)
    (hr : c.rest = x :: tl) : c.readHere = (.fault (.character x (c.pos + 1)), c) := by
  simp [readHere, current?_eq hr hx.not_terminator, hx.not_digit, hx.not_sign]

end Cursor

namespace Spelling

variable {w : List Char} {l : Lexeme}

theorem ne_nil : (Spelling w l) → w ≠ []
  | operator _         => by simp
  | integer digits _ h => List.length_pos_iff.mp h.1

theorem not_space (h : Spelling w l) (hx : x ∈ w) : x ≠ ' ' := by
  cases h
  case operator o     => cases o <;> simp_all [Operator.sign]
  case integer hd _ => intro h; subst h; simpa using hd _ hx

theorem not_terminator (h : Spelling w l) (hx : x ∈ w) : Cursor.isTerminator x = false := by
  cases h
  case operator o => cases o <;> simp_all [Operator.sign, Cursor.isTerminator]
  case integer hd _ => exact Cursor.not_terminator_of_isDigit (hd x hx)

end Spelling

namespace Reads

variable {c d : Cursor} {r : Reading}

theorem read_eq (h : Reads c r d) : c.read = (r, d) := by
  cases h
  case lexeme l s w hs hw hm hr hp =>
    have hh : (w ++ d.rest).head? ≠ some ' ' := by
      have ⟨x, tl, ht⟩ := List.exists_cons_of_ne_nil hw.ne_nil
      subst ht
      simpa using hw.not_space (x := x) (by simp)
    let e : Cursor := ⟨c.pos + s.length, w ++ d.rest⟩
    have he : c.skipSpaces = e := Cursor.skipSpaces_eq hs hh hr rfl
    cases hw
    case operator o => simpa [Cursor.read, he] using Cursor.readHere_operator (c := e) rfl hp
    case integer hd hn =>
      have := Cursor.readHere_digits (c := e) (List.length_pos_iff.mp hn.1) hd (hm trivial) rfl hp
      simpa [Cursor.read, he, hn] using this
  case eof s hs he hr hp =>
    have hh : d.rest.head? ≠ some ' ' := fun h => by simpa [Cursor.isTerminator] using he _ h
    rw [Cursor.read, Cursor.skipSpaces_eq hs hh hr hp, Cursor.readHere_eof he]
  case literal s w hs hd hl hm hr hp =>
    have hw : w ≠ [] := List.length_pos_iff.mp <| Nat.zero_lt_of_lt hl
    have hh : (w ++ d.rest).head? ≠ some ' ' := by
      have ⟨x, tl, ht⟩ := List.exists_cons_of_ne_nil hw
      subst ht
      intro h
      have hx : x = ' ' := by simpa using h
      subst hx
      simpa using hd ' '
    let e : Cursor := ⟨c.pos + s.length, w ++ d.rest⟩
    have he : c.skipSpaces = e := Cursor.skipSpaces_eq hs hh hr rfl
    have hn : ¬Numeral.Readable w := fun h => Nat.not_le_of_lt hl h.2
    simpa [Cursor.read, he, hn] using Cursor.readHere_digits (c := e) hw hd hm rfl hp
  case character s x tl hs hx ht hr hp =>
    have hh : d.rest.head? ≠ some ' ' := by simpa [ht] using hx.not_space
    rw [Cursor.read, Cursor.skipSpaces_eq hs hh hr hp, Cursor.readHere_character hx ht]

theorem exists_reads (c : Cursor) : ∃ r d, Reads c r d := by
  have ⟨s, rest, hr, hs, hh⟩ := Text.exists_span (· = ' ') c.rest
  replace hs : Spaces s := fun x hx => by simpa using hs x hx
  cases rest
  case nil => exact ⟨_, _, .eof s ⟨c.pos + s.length, []⟩ hs (by simp [Ended]) hr rfl⟩
  case cons x tl =>
    have hx : x ≠ ' ' := by simpa using hh
    by_cases ht : Cursor.isTerminator x
    · exact ⟨_, _, .eof s ⟨c.pos + s.length, x :: tl⟩ hs (by simpa [Ended] using ht) hr rfl⟩
    by_cases hd : x.isDigit
    · have ⟨w, rest, hw, hd', hm⟩ := Text.exists_span Char.isDigit (x :: tl)
      have hn : w ≠ [] := by
        intro h
        have hw : x :: tl = rest := by simpa [h] using hw
        subst hw
        simpa [hd] using hm x
      rw [hw] at hr
      let d : Cursor := ⟨c.pos + s.length + w.length, rest⟩
      by_cases hl : w.length ≤ Numeral.maxDigits
      · have hn := List.length_pos_iff.mpr hn
        exact ⟨_, d, .lexeme s w d hs (.integer w hd' ⟨hn, hl⟩) (fun _ => hm) hr rfl⟩
      · exact ⟨_, d, .literal s w d hs hd' (Nat.lt_of_not_le hl) hm hr rfl⟩
    cases ho : Operator.ofSign? x
    case some o =>
      cases Operator.ofSign?_eq_some.mp ho
      exact ⟨_, _, .lexeme s [o.sign] ⟨_, tl⟩ hs (.operator o) nofun hr rfl⟩
    case none =>
      have hx : Foreign x := ⟨hx, by simpa using ht, by simpa using hd, ho⟩
      exact ⟨_, _, .character s x tl ⟨c.pos + s.length, x :: tl⟩ hs hx rfl hr rfl⟩

theorem iff_read_eq : Reads c r d ↔ c.read = (r, d) where
  mp h  := h.read_eq
  mpr h := by
    have ⟨r', d', h'⟩ := exists_reads c
    cases h.symm.trans h'.read_eq
    exact h'

theorem writable (h : Reads c (.lexeme l) d) : l.Writable := by
  cases h
  case lexeme hw _ _ _ =>
    cases hw
    case operator         => trivial
    case integer hd hn _ => exact Numeral.writable_value hd hn

end Reads

theorem Cursor.feed_induction {motive : Cursor → Prop}
    (lexeme : ∀ c l d, Reads c (.lexeme l) d → c.feed = .lexeme l d d.feed → motive d → motive c)
    (eof : ∀ c d, Reads c .eof d → c.feed = .eof d → motive c)
    (fault : ∀ c f d, Reads c (.fault f) d → c.feed = .fault f d → motive c) (c : Cursor) :
    motive c := by
  have hf := c.feed_eq
  rcases h : c.read with ⟨l | _ | f, d⟩ <;> simp only [h] at hf
  case lexeme =>
    have := length_read_lt h
    exact lexeme c l d (Reads.iff_read_eq.mpr h) hf (feed_induction lexeme eof fault d)
  case eof   => exact eof c d (Reads.iff_read_eq.mpr h) hf
  case fault => exact fault c f d (Reads.iff_read_eq.mpr h) hf
termination_by c.rest.length

namespace Cursor

variable {c d : Cursor}

theorem feed_eq_lexeme (h : c.feed = .lexeme l d next) : Reads c (.lexeme l) d ∧ next = d.feed := by
  have ⟨r, e, hr⟩ := Reads.exists_reads c
  rw [feed_eq, hr.read_eq] at h
  cases r <;> cases h
  exact ⟨hr, rfl⟩

theorem feed_eq_fault (h : c.feed = .fault f d) : Reads c (.fault f) d := by
  have ⟨r, e, hr⟩ := Reads.exists_reads c
  rw [feed_eq, hr.read_eq] at h
  cases r <;> cases h
  exact hr

end Cursor

end Abacus
