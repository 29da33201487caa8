import Abacus.Proofs.Reads
import Mathlib.Data.List.Chain

namespace Abacus

def visible (text : List Char) : List Char :=
  text.takeWhile (!Cursor.isTerminator ·)

-- An integer in front of another one is followed by a space.
def Apart : Lexeme → List Lexeme → List Char → Prop
  | .integer _, .integer _ :: _, cs => cs.head? = some ' '
  | _, _, _                         => True

inductive Layout : List Lexeme → List Char → Prop
  | nil (s : List Char) (hs : Spaces s) : Layout [] s
  | cons (s w cs : List Char) (hs : Spaces s) (hw : Spelling w l) (ha : Apart l ls cs)
      (hl : Layout ls cs) : Layout (l :: ls) (s ++ (w ++ cs))

theorem Spaces.not_terminator {s : List Char} (h : Spaces s) (hx : x ∈ s) :
    Cursor.isTerminator x = false :=
  h x hx ▸ rfl

theorem Spaces.undigited {s : List Char} (h : Spaces s) : Undigited s := fun x hx =>
  h x (List.mem_of_mem_head? hx) ▸ rfl

theorem Ended.undigited {rest : List Char} (h : Ended rest) : Undigited rest := by
  intro x hx
  have := h x hx
  simp [Cursor.isTerminator] at this
  cases this <;> simp_all

theorem visible_append {s rest : List Char} (h : ∀ x ∈ s, Cursor.isTerminator x = false) :
    visible (s ++ rest) = s ++ visible rest :=
  List.takeWhile_append_of_pos <| by simpa using h

theorem Spaces.visible_append {s rest : List Char} (h : Spaces s) :
    visible (s ++ rest) = s ++ visible rest :=
  Abacus.visible_append fun _ => h.not_terminator

theorem Spelling.visible_append {w rest : List Char} {l : Lexeme} (h : Spelling w l) :
    visible (w ++ rest) = w ++ visible rest :=
  Abacus.visible_append fun _ => h.not_terminator

theorem visible_eq_nil {rest : List Char} (h : Ended rest) : visible rest = [] := by
  cases rest <;> simp_all [visible, Ended]

theorem exists_visible (text : List Char) : ∃ rest, text = visible text ++ rest ∧ Ended rest := by
  have ⟨s, rest, ht, hs, hr⟩ := Text.exists_span (!Cursor.isTerminator ·) text
  have he : Ended rest := fun x hx => by simpa using hr x hx
  exists rest
  rw [ht, visible_append (by simpa using hs), visible_eq_nil he, List.append_nil]
  exact ⟨rfl, he⟩

theorem head?_visible {rest : List Char} (h : (visible rest).head? = some x) :
    rest.head? = some x := by
  rw [visible, List.head?_takeWhile] at h
  exact Option.filter_eq_some_iff.mp h |>.left

namespace Layout

variable {ls : List Lexeme} {cs : List Char}

theorem not_terminator (h : Layout ls cs) : ∀ x ∈ cs, Cursor.isTerminator x = false := by
  induction h
  case nil hs             => exact fun _ => hs.not_terminator
  case cons hs hw _ _ hi =>
    simp only [List.forall_mem_append]
    exact ⟨fun _ => hs.not_terminator, fun _ => hw.not_terminator, hi⟩

theorem undigited (h : Layout ls cs) (hn : ∀ l ∈ ls.head?, ¬l.IsInteger) : Undigited cs := by
  cases h
  case nil hs => exact hs.undigited
  case cons l ls s w cs hs hw _ _ =>
    cases s
    case cons => exact fun x hx => hs.undigited x (by simpa using hx)
    case nil =>
      cases hw
      case operator o _ => simpa [Undigited] using o.sign_not_isDigit
      case integer      => exact hn _ rfl trivial |>.elim

theorem head?_integer (h : Layout (.integer n :: ls) cs) :
    cs.head? = some ' ' ∨ ∃ x ∈ cs.head?, x.isDigit := by
  cases h
  case cons s w cs hs hw _ _ =>
    cases s
    case cons x tl => exact .inl <| by simpa using hs x
    case nil =>
      have ⟨x, tl, ht⟩ := List.exists_cons_of_ne_nil hw.ne_nil
      subst ht
      cases hw
      case integer hd _ _ => exact .inr ⟨x, rfl, hd x (by simp)⟩

theorem boundary {rest : List Char} (h : Layout ls cs) (ha : Apart l ls cs) (hl : l.IsInteger)
    (hr : Ended rest) : Undigited (cs ++ rest) := by
  cases cs
  case nil => exact hr.undigited
  case cons y tl =>
    suffices hs : Undigited (y :: tl) from hs
    cases ls
    case nil => exact h.undigited nofun
    case cons m ls =>
      cases m
      case operator => exact h.undigited <| by simp [Lexeme.IsInteger]
      case integer =>
        cases l
        case operator => exact hl.elim
        case integer  => intro x hx; cases ha.symm.trans hx; rfl

-- Without a space the digits of the first of two integers would go on.
theorem apart (h : Layout ls cs) (hu : l.IsInteger → Undigited cs) : Apart l ls cs := by
  cases l <;> try trivial
  cases ls <;> try trivial
  case integer.cons m ls =>
    cases m <;> try trivial
    refine h.head?_integer.resolve_right <| not_exists.mpr fun x hx => ?_
    have := hu trivial x hx.left
    simp_all

theorem feed {c : Cursor} {rest : List Char} (h : Layout ls cs) (hc : c.rest = cs ++ rest)
    (hr : Ended rest) : c.feed.lexemes = ls ∧ c.feed.fault? = none := by
  induction h generalizing c
  case nil s hs =>
    let d : Cursor := ⟨c.pos + s.length, rest⟩
    have hd : Reads c .eof d := .eof s d hs hr hc rfl
    simp [c.feed_eq, hd.read_eq, Feed.lexemes, Feed.fault?]
  case cons l ls s w cs hs hw ha hl hi =>
    let d : Cursor := ⟨c.pos + s.length + w.length, cs ++ rest⟩
    have hd : Reads c (.lexeme l) d :=
      .lexeme s w d hs hw (hl.boundary ha · hr) (by simp [hc, d]) rfl
    have hi := hi (c := d) rfl
    simp [c.feed_eq, hd.read_eq, Feed.lexemes, Feed.fault?, hi.left, hi.right]

theorem feed_start (h : Layout ls cs) :
    (Cursor.start cs).feed.lexemes = ls ∧ (Cursor.start cs).feed.fault? = none :=
  h.feed (List.append_nil cs).symm nofun

end Layout

theorem Cursor.layout (c : Cursor) (h : c.feed.fault? = none) :
    Layout c.feed.lexemes (visible c.rest) := by
  induction c using Cursor.feed_induction
  case eof c d hr hf =>
    cases hr
    case eof s hs he hr _ =>
      rw [hf, hr, hs.visible_append, visible_eq_nil he, List.append_nil]
      exact .nil s hs
  case fault hf => simp [hf, Feed.fault?] at h
  case lexeme c l d hr hf hi =>
    have hl := hi <| by simpa [hf, Feed.fault?] using h
    cases hr
    case lexeme s w hs hw hr _ hm =>
      rw [hf, hr, hs.visible_append, hw.visible_append]
      exact .cons s w _ hs hw (hl.apart fun hi x hx => hm hi x (head?_visible hx)) hl

theorem Cursor.layout_iff {c : Cursor} {ls : List Lexeme} :
    (c.feed.lexemes = ls ∧ c.feed.fault? = none) ↔ Layout ls (visible c.rest) where
  mp  := fun ⟨hl, hf⟩ => hl ▸ c.layout hf
  mpr := fun h =>
    have ⟨_, hc, hr⟩ := exists_visible c.rest
    h.feed hc hr

namespace Lexeme

def written : Lexeme → List Char
  | integer n  => (Numeral.decimal n).toList
  | operator o => [o.sign]

theorem spelling_written : {l : Lexeme} → l.Writable → Spelling l.written l
  | operator o, _ => .operator o
  | integer n, h  => by
    have hd : ∀ x ∈ (Numeral.decimal n).toList, x.isDigit := fun _ => Numeral.isDigit_of_mem_decimal
    have := Spelling.integer _ hd <| Numeral.readable_decimal h
    rwa [Numeral.value_decimal] at this

end Lexeme

def render (last : Nat) : List (Nat × Lexeme) → List Char
  | []             => List.replicate last ' '
  | (gap, l) :: ls => List.replicate gap ' ' ++ (l.written ++ render last ls)

def Gapped : List (Nat × Lexeme) → Prop :=
  List.IsChain fun a b => a.2.IsInteger → b.2.IsInteger → 0 < b.1

theorem spaces_replicate (gap : Nat) : Spaces (List.replicate gap ' ') := fun _ =>
  List.eq_of_mem_replicate

theorem layout_render {ls : List (Nat × Lexeme)} (hg : Gapped ls) (hw : ∀ l ∈ ls, l.2.Writable) :
    Layout (ls.map Prod.snd) (render last ls) := by
  induction ls
  case nil => exact .nil _ (spaces_replicate last)
  case cons a ls hi =>
    have hl := hi hg.of_cons fun l hl => hw l (by simp [hl])
    refine .cons _ _ _ (spaces_replicate a.1) (Lexeme.spelling_written <| hw a (by simp)) ?_ hl
    cases a
    case mk gap l =>
      cases l <;> try trivial
      cases ls <;> try trivial
      case integer.cons b ls =>
        cases b
        case mk gap l =>
          cases l <;> try trivial
          have ⟨k, hk⟩ := Nat.exists_eq_add_one.mpr (hg.rel trivial trivial)
          subst hk
          simp [Apart, render, List.replicate_succ]

def canonical : List Lexeme → List Char
  | .integer n :: .integer m :: ls =>
    (Lexeme.integer n).written ++ ' ' :: canonical (.integer m :: ls)
  | l :: ls => l.written ++ canonical ls
  | []      => []

theorem Layout.behind_space {ls : List Lexeme} {cs : List Char} (h : Layout ls cs) :
    Layout ls (' ' :: cs) := by
  have hc {s : List Char} (hs : Spaces s) : Spaces (' ' :: s) := by simpa [Spaces] using hs
  cases h
  case nil hs                  => exact .nil _ (hc hs)
  case cons s w cs hs hw ha hl => exact .cons (' ' :: s) w cs (hc hs) hw ha hl

theorem layout_canonical {ls : List Lexeme} (hw : ∀ l ∈ ls, l.Writable) :
    Layout ls (canonical ls) := by
  fun_induction canonical ls
  case case1 n m ls hi =>
    have hl := hi fun l hl => hw l (.tail _ hl)
    exact .cons [] _ _ nofun (Lexeme.spelling_written <| hw _ (.head _)) rfl hl.behind_space
  case case2 l ls hn hi =>
    have hl := hi fun l hl => hw l (.tail _ hl)
    refine .cons [] _ _ nofun (Lexeme.spelling_written <| hw _ (.head _)) ?_ hl
    cases l <;> try trivial
    cases ls <;> try trivial
    case integer.cons m ls =>
      cases m <;> try trivial
      exact hn _ _ _ rfl rfl |>.elim
  case case3 => exact .nil [] nofun

theorem Feed.render_lexemes (last : Nat) {ls : List (Nat × Lexeme)} (hg : Gapped ls)
    (hw : ∀ l ∈ ls, l.2.Writable) :
    (ofText (String.ofList (render last ls))).lexemes = ls.map Prod.snd ∧
      (ofText (String.ofList (render last ls))).fault? = none := by
  rw [ofText, String.toList_ofList]
  exact (layout_render hg hw).feed_start

theorem Feed.tokens_eq_iff {feed : Feed} {ts : List Token} :
    (feed.tokens = ts ++ [.eof] ∧ feed.fault? = none) ↔
      (feed.lexemes.map Lexeme.token = ts ∧ feed.fault? = none) := by
  rw [feed.tokens_eq]
  refine and_congr_left fun hf => ?_
  simp [hf]

-- The lexer recognizes layouts, and so undoes every way to write lexemes down.
theorem tokens_eq_iff_layout :
    (∀ (text : String) (ts : List Token),
      ((Feed.ofText text).tokens = ts ++ [.eof] ∧ (Feed.ofText text).fault? = none) ↔
        ∃ ls, ls.map Lexeme.token = ts ∧ Layout ls (visible text.toList)) ∧
    (∀ (ls : List (Nat × Lexeme)) (last : Nat), Gapped ls → (∀ l ∈ ls, l.2.Writable) →
      (Feed.ofText (String.ofList (render last ls))).tokens = ls.map (·.2.token) ++ [.eof] ∧
        (Feed.ofText (String.ofList (render last ls))).fault? = none) := by
  constructor
  case left =>
    intro text ts
    rw [Feed.tokens_eq_iff]
    constructor
    case mp  => exact fun ⟨ht, hf⟩ => ⟨_, ht, Cursor.layout_iff.mp ⟨rfl, hf⟩⟩
    case mpr =>
      intro ⟨ls, ht, hl⟩
      have ⟨h, hf⟩ := Cursor.layout_iff (c := .start text.toList).mpr hl
      exact ⟨h ▸ ht, hf⟩
  case right =>
    intro ls last hg hw
    have ⟨h, hf⟩ := Feed.render_lexemes last hg hw
    rw [Feed.tokens_eq_iff]
    simp [h, hf]

end Abacus
