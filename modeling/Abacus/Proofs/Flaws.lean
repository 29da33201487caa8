import Abacus.Proofs.Layout

namespace Abacus

theorem isDigit_iff_mem {x : Char} : x.isDigit ↔ x ∈ "0123456789".toList := by
  simp [Char.isDigit_iff_toNat, ←Char.toNat_inj]
  omega

theorem Operator.ofSign?_eq_none {x : Char} : ofSign? x = none ↔ x ∉ "+-*/".toList := by
  rw [Option.eq_none_iff_forall_ne_some]
  simp [ofSign?_eq_some]
  constructor
  case mp  => exact fun h => ⟨h .plus, h .minus, h .times, h .divide⟩
  case mpr => intro h o; cases o <;> simp [h, sign]

theorem foreign_iff {x : Char} :
    Foreign x ↔ Cursor.isTerminator x = false ∧ x ∉ " 0123456789+-*/".toList := by
  have hs : " 0123456789+-*/".toList = ' ' :: ("0123456789".toList ++ "+-*/".toList) := rfl
  rw [hs, List.mem_cons, List.mem_append, ←isDigit_iff_mem, not_or, not_or,
    ←Operator.ofSign?_eq_none]
  constructor
  case mp  => exact fun h => ⟨h.not_terminator, h.not_space, by simp [h.not_digit], h.not_sign⟩
  case mpr => exact fun ⟨ht, hs, hd, ho⟩ => ⟨hs, ht, by simpa using hd, ho⟩

theorem digits_unique {w t u r : List Char} (hw : ∀ x ∈ w, x.isDigit) (ht : Undigited t)
    (hu : ∀ x ∈ u, x.isDigit) (hr : Undigited r) (h : w ++ t = u ++ r) : w = u := by
  rw [←Text.takeWhile_eq hw ht, h, Text.takeWhile_eq hu hr]

structure Overlong (s w t : List Char) : Prop where
  digits : ∀ x ∈ w, x.isDigit
  long   : Numeral.maxDigits < w.length
  left   : ∀ x ∈ s.getLast?, x.isDigit = false
  right  : Undigited t

-- `Flaw p v q f` reads: of the line `v`, whose first character has position `p`, what begins in
-- position `q` cannot be read, and `f` says so. Columns count from one.
inductive Flaw (p : Nat) (v : List Char) (q : Nat) : Fault → Prop
  | character (s t : List Char) (hv : v = s ++ x :: t) (hq : q = p + s.length) (hx : Foreign x) :
      Flaw p v q (.character x (q + 1))
  | literal (s w t : List Char) (hv : v = s ++ (w ++ t)) (hq : q = p + s.length)
      (hw : Overlong s w t) : Flaw p v q (.literal w.length (q + 1))

structure Leftmost (p : Nat) (v : List Char) (q : Nat) (f : Fault) : Prop where
  flaw  : Flaw p v q f
  least : ∀ r g, Flaw p v r g → q ≤ r

namespace Overlong

variable {s w t : List Char}

theorem ne_nil (h : Overlong s w t) : w ≠ [] :=
  List.length_pos_iff.mp <| Nat.zero_lt_of_lt h.long

theorem not_foreign {x : Char} {tl : List Char} (h : Overlong s w t) (ht : w ++ t = x :: tl) :
    ¬Foreign x := by
  intro hx
  have ⟨y, w', hy⟩ := List.exists_cons_of_ne_nil h.ne_nil
  subst hy
  cases ht
  cases hx.not_digit.symm.trans <| h.digits x (by simp)

theorem of_append {r : List Char} (h : Overlong (r ++ s) w t) : Overlong s w t where
  digits := h.digits
  long   := h.long
  right  := h.right
  left x hx := h.left x <| by simp [List.getLast?_append, Option.mem_def.mp hx]

theorem append {r : List Char} (h : Overlong s w t) (hs : s ≠ []) : Overlong (r ++ s) w t where
  digits := h.digits
  long   := h.long
  right  := h.right
  left   := by rw [List.getLast?_append_of_ne_nil r hs]; exact h.left

end Overlong

namespace Flaw

variable {p q : Nat} {v w s : List Char} {f g : Fault} {x : Char}

theorem le : Flaw p v q f → p ≤ q
  | character _ _ _ hq _ => by omega
  | literal _ _ _ _ hq _ => by omega

theorem literal_pos : Flaw p v q (.literal n column) → 0 < n
  | literal _ _ _ _ _ hw => Nat.zero_lt_of_lt hw.long

theorem unique (h₁ : Flaw p v q f) (h₂ : Flaw p v q g) : f = g := by
  cases h₁ <;> cases h₂
  case character.character hv₁ _ _ _ _ _ hv₂ _ _ =>
    have ⟨_, ht⟩ := List.append_inj (hv₁.symm.trans hv₂) (by omega)
    cases ht
    rfl
  case character.literal hv₁ _ hx _ _ _ hv₂ _ hw =>
    have ⟨_, ht⟩ := List.append_inj (hv₁.symm.trans hv₂) (by omega)
    exact absurd hx <| hw.not_foreign ht.symm
  case literal.character hv₁ _ hw _ _ _ hv₂ _ hx =>
    have ⟨_, ht⟩ := List.append_inj (hv₁.symm.trans hv₂) (by omega)
    exact absurd hx <| hw.not_foreign ht
  case literal.literal hv₁ _ hw₁ _ _ _ hv₂ _ hw₂ =>
    have ⟨_, ht⟩ := List.append_inj (hv₁.symm.trans hv₂) (by omega)
    rw [digits_unique hw₁.digits hw₁.right hw₂.digits hw₂.right ht]

theorem exists_iff :
    (∃ q f, Flaw p v q f) ↔
      (∃ x ∈ v, Foreign x) ∨ ∃ s w t, v = s ++ (w ++ t) ∧ Overlong s w t where
  mp  := fun
    | ⟨_, _, character s t hv _ hx⟩ => .inl ⟨_, by simp [hv], hx⟩
    | ⟨_, _, literal s w t hv _ hw⟩ => .inr ⟨s, w, t, hv, hw⟩
  mpr h := by
    obtain ⟨x, hm, hx⟩ | ⟨s, w, t, hv, hw⟩ := h
    case inl =>
      have ⟨s, t, hv⟩ := List.append_of_mem hm
      exact ⟨_, _, .character s t hv rfl hx⟩
    case inr => exact ⟨_, _, .literal s w t hv rfl hw⟩

theorem append (hw : (∀ x ∈ w.getLast?, x.isDigit = false) ∨ Undigited v)
    (h : Flaw (p + w.length) v q f) : Flaw p (w ++ v) q f := by
  cases h
  case character y s t hv hq hy =>
    subst hv
    exact .character (w ++ s) t (by simp) (by simp; omega) hy
  case literal s u t hv hq hu =>
    subst hv
    refine .literal (w ++ s) u t (by simp) (by simp; omega) ?_
    by_cases hs : s = []
    case neg => exact hu.append hs
    case pos =>
      subst hs
      cases hw
      case inl hw => exact { hu with left := by simpa using hw }
      case inr hv =>
        have ⟨y, u', hy⟩ := List.exists_cons_of_ne_nil hu.ne_nil
        cases hv y (by simp [hy]) |>.symm.trans <| hu.digits y (by simp [hy])

theorem cons_iff (hd : x.isDigit = false) (hx : ¬Foreign x) :
    Flaw p (x :: v) q f ↔ Flaw (p + 1) v q f where
  mp h := by
    cases h
    case character y s t hv hq hy =>
      cases s
      case nil  => cases hv; exact absurd hy hx
      case cons => cases hv; exact .character _ t rfl (by simp at hq; omega) hy
    case literal s w t hv hq hw =>
      cases s
      case nil =>
        have ⟨y, w', hy⟩ := List.exists_cons_of_ne_nil hw.ne_nil
        subst hy
        cases hv
        cases hd.symm.trans <| hw.digits x (by simp)
      case cons s =>
        cases hv
        exact .literal s w t rfl (by simp at hq; omega) <| hw.of_append (r := [x])
  mpr h := h.append (w := [x]) <| .inl <| by simpa using hd

theorem spaces_iff (hs : Spaces s) : Flaw p (s ++ v) q f ↔ Flaw (p + s.length) v q f := by
  induction s generalizing p
  case nil => rfl
  case cons x s hi =>
    have hx : x = ' ' := hs x (by simp)
    have hf : ¬Foreign x := fun h => h.not_space hx
    rw [List.cons_append, cons_iff (hx ▸ rfl) hf, hi fun y hy => hs y (by simp [hy])]
    rw [List.length_cons, Nat.add_right_comm, Nat.add_assoc]

theorem digits_iff (hd : ∀ x ∈ w, x.isDigit) (he : Undigited v) :
    Flaw p (w ++ v) q f ↔
      (Numeral.maxDigits < w.length ∧ q = p ∧ f = .literal w.length (p + 1)) ∨
        Flaw (p + w.length) v q f where
  mp h := by
    cases h
    case character y s t hs hq hy =>
      right
      obtain ⟨r, hr, hv⟩ | ⟨r, hr, hv⟩ := List.append_eq_append_iff.mp hs
      case inl => exact .character r t hv (by simp [hr] at hq; omega) hy
      case inr =>
        -- The character stands behind the run, since it is no digit.
        cases r
        case nil => exact .character [] t (by simpa using hv.symm) (by simp [hr, hq]) hy
        case cons z r =>
          cases hv
          cases hy.not_digit.symm.trans <| hd y (by simp [hr])
    case literal s u t hs hq hu =>
      obtain ⟨r, hr, hv⟩ | ⟨r, hr, hv⟩ := List.append_eq_append_iff.mp hs
      case inl =>
        subst hr
        exact .inr <| .literal r u t hv (by simp at hq; omega) hu.of_append
      case inr =>
        -- The two runs begin and end together.
        by_cases hn : s = []
        case pos =>
          subst hn
          have hw : w = u := digits_unique hd he hu.digits hu.right hs
          exact .inl ⟨hw ▸ hu.long, by simpa using hq, by simp [hw, hq]⟩
        case neg =>
          have hl := hd (s.getLast hn) <| by simp [hr, List.getLast_mem hn]
          cases hu.left _ (List.getLast?_eq_some_getLast hn) |>.symm.trans hl
  mpr h := by
    obtain ⟨hl, rfl, rfl⟩ | h := h
    case inl => exact .literal [] w v rfl rfl ⟨hd, hl, by simp, he⟩
    case inr => exact h.append (.inr he)

end Flaw

theorem Leftmost.unique {f g : Fault} (h₁ : Leftmost p v q f) (h₂ : Leftmost p v r g) :
    q = r ∧ f = g := by
  cases Nat.le_antisymm (h₁.least _ _ h₂.flaw) (h₂.least _ _ h₁.flaw)
  exact ⟨rfl, h₁.flaw.unique h₂.flaw⟩

theorem Undigited.visible {rest : List Char} (h : Undigited rest) : Undigited (visible rest) :=
  fun x hx => h x <| head?_visible hx

theorem visible_digits {w rest : List Char} (hd : ∀ x ∈ w, x.isDigit) :
    visible (w ++ rest) = w ++ visible rest :=
  visible_append fun x hx => Cursor.not_terminator_of_isDigit (hd x hx)

theorem visible_cons {x : Char} {rest : List Char} (h : Cursor.isTerminator x = false) :
    visible (x :: rest) = x :: visible rest :=
  visible_append (s := [x]) (by simpa using h)

theorem Undigited.take {rest : List Char} (h : Undigited rest) (n : Nat) :
    Undigited (rest.take n) := by
  cases n
  case zero => nofun
  case succ => simpa [Undigited, List.head?_take] using h

namespace Reads

variable {c d : Cursor} {q : Nat} {f : Fault}

theorem flaw_iff {r : Reading} (h : Reads c r d) :
    Flaw c.pos (visible c.rest) q f ↔
      (∃ n, r = .fault f ∧ f = .literal n (q + 1) ∧ d.pos = q + n) ∨
        Flaw d.pos (visible d.rest) q f := by
  cases h
  case lexeme s w hs hw hm hr hp =>
    rw [hr, hs.visible_append, hw.visible_append, Flaw.spaces_iff hs, hp, or_iff_right (by simp)]
    cases hw
    case operator o =>
      exact Flaw.cons_iff o.sign_not_isDigit fun hx => by simpa using hx.not_sign
    case integer hd hn =>
      rw [Flaw.digits_iff hd (hm trivial).visible]
      exact or_iff_right fun h => Nat.not_le_of_lt h.left hn.right
  case eof s hs _ hr hp =>
    rw [hr, hs.visible_append, Flaw.spaces_iff hs, hp, or_iff_right (by simp)]
  case character s x tl hs _ _ hr hp =>
    rw [hr, hs.visible_append, Flaw.spaces_iff hs, hp,
      or_iff_right (by rintro ⟨_, h, hn, _⟩; cases h; cases hn)]
  case literal s w hs hd hl hm hr hp =>
    rw [hr, hs.visible_append, visible_digits hd, Flaw.spaces_iff hs, hp,
      Flaw.digits_iff hd hm.visible]
    refine or_congr_left ⟨?_, ?_⟩
    case refine_1 => exact fun ⟨_, hq, hf⟩ => ⟨w.length, by rw [hf], by rw [hf, hq], by omega⟩
    case refine_2 =>
      rintro ⟨n, hf, hn, hq⟩
      cases hf
      cases hn
      exact ⟨hl, by omega, rfl⟩

theorem flaw_lexeme (h : Reads c (.lexeme l) d) :
    Flaw c.pos (visible c.rest) q f ↔ Flaw d.pos (visible d.rest) q f :=
  h.flaw_iff.trans <| or_iff_right <| by simp

theorem not_flaw_eof (h : Reads c .eof d) : ¬Flaw c.pos (visible c.rest) q f := by
  cases h
  case eof s hs he hr hp =>
    rw [hr, hs.visible_append, visible_eq_nil he, Flaw.spaces_iff hs]
    intro h
    cases h
    case character hv _ _ => simp at hv
    case literal hv _ hw  => simp at hv; exact hw.ne_nil hv.right.left

theorem flaw_fault (h : Reads c (.fault f) d) :
    ∃ q, Leftmost c.pos (visible c.rest) q f ∧ Spaces ((visible c.rest).take (q - c.pos)) := by
  suffices hv : ∃ s v, Spaces s ∧ visible c.rest = s ++ v ∧
      Flaw c.pos (visible c.rest) (c.pos + s.length) f by
    have ⟨s, v, hs, hv, hf⟩ := hv
    refine ⟨_, ⟨hf, fun r g hg => ?_⟩, ?_⟩
    case refine_1 => exact Flaw.spaces_iff hs |>.mp (hv ▸ hg) |>.le
    case refine_2 => simpa [hv] using hs
  cases h
  case literal s w hs hd hl hm hr hp =>
    have hv : visible c.rest = s ++ (w ++ visible d.rest) := by
      rw [hr, hs.visible_append, visible_digits hd]
    refine ⟨s, _, hs, hv, .literal s w _ hv rfl ⟨hd, hl, fun x hx => ?_, hm.visible⟩⟩
    exact hs x (List.mem_of_getLast? hx) ▸ rfl
  case character s x tl hs hx ht hr hp =>
    have hv : visible c.rest = s ++ x :: visible tl := by
      rw [hr, hs.visible_append, ht, visible_cons hx.not_terminator]
    exact ⟨s, _, hs, hv, hp ▸ .character s _ hv hp hx⟩

end Reads

namespace Cursor

structure Spots (c : Cursor) (q : Nat) (f : Fault) : Prop
    extends Leftmost c.pos (visible c.rest) q f where
  layout : Layout c.feed.lexemes ((visible c.rest).take (q - c.pos))

variable {c d : Cursor} {q : Nat} {f : Fault}

theorem Spots.lexeme (h : d.Spots q f) (hr : Reads c (.lexeme l) d)
    (hf : c.feed = .lexeme l d d.feed) : c.Spots q f where
  flaw         := hr.flaw_lexeme.mpr h.flaw
  least r g hg := h.least r g <| hr.flaw_lexeme.mp hg
  layout := by
    have hq := h.flaw.le
    cases hr
    case lexeme s w hs hw hr hp hm =>
      have ht : q - c.pos = s.length + (w.length + (q - d.pos)) := by omega
      rw [hf, hr, hs.visible_append, hw.visible_append, ht, List.take_length_add_append,
        List.take_length_add_append]
      exact .cons s w _ hs hw (h.layout.apart fun hi => (hm hi).visible.take _) h.layout

theorem spots (c : Cursor) :
    (c.feed.fault? = none ∧ ∀ q f, ¬Flaw c.pos (visible c.rest) q f) ∨
      ∃ q f, c.feed.fault? = some f ∧ c.Spots q f := by
  induction c using feed_induction
  case lexeme hr hf hi =>
    rw [hf]
    refine hi.imp (fun h => ⟨h.left, fun q f => ?_⟩) fun ⟨q, f, h, hs⟩ => ⟨q, f, h, hs.lexeme hr hf⟩
    exact hr.flaw_lexeme.not.mpr <| h.right q f
  case eof hr hf => exact .inl ⟨by rw [hf]; rfl, fun _ _ => hr.not_flaw_eof⟩
  case fault c f d hr hf =>
    have ⟨q, h, hs⟩ := hr.flaw_fault
    exact .inr ⟨q, f, by rw [hf]; rfl, h, by rw [hf]; exact .nil _ hs⟩

theorem fault?_eq_some :
    c.feed.fault? = some f ↔ ∃ q, Leftmost c.pos (visible c.rest) q f where
  mp h := by
    obtain ⟨hn, _⟩ | ⟨q, g, hg, hs⟩ := c.spots
    case inl => cases h.symm.trans hn
    case inr => cases h.symm.trans hg; exact ⟨q, hs.toLeftmost⟩
  mpr := by
    intro ⟨q, h⟩
    obtain ⟨_, hn⟩ | ⟨r, g, hg, hs⟩ := c.spots
    case inl => exact absurd h.flaw <| hn q f
    case inr => exact h.unique hs.toLeftmost |>.right ▸ hg

theorem exists_fault : (∃ f, c.feed.fault? = some f) ↔ ∃ q f, Flaw c.pos (visible c.rest) q f where
  mp  := fun ⟨f, h⟩ =>
    have ⟨q, hl⟩ := fault?_eq_some.mp h
    ⟨q, f, hl.flaw⟩
  mpr := by
    intro ⟨q, f, h⟩
    obtain ⟨_, hn⟩ | ⟨_, g, hg, _⟩ := c.spots
    case inl => exact absurd h <| hn q f
    case inr => exact ⟨g, hg⟩

end Cursor

theorem Feed.take_tokens {text : List Char} (h : Leftmost 0 (visible text) q f) :
    (Cursor.start text).feed.tokens ++ [.eof] = (Cursor.start (text.take q)).feed.tokens ∧
      (Cursor.start (text.take q)).feed.fault? = none := by
  have hf := Cursor.fault?_eq_some (c := .start text) |>.mpr ⟨q, h⟩
  obtain ⟨hn, _⟩ | ⟨r, g, _, hs⟩ := (Cursor.start text).spots
  case inl => cases hf.symm.trans hn
  case inr =>
    have hl : Layout (Cursor.start text).feed.lexemes (visible (text.take q)) := by
      rw [h.unique hs.toLeftmost |>.left, visible, ←List.take_takeWhile]
      exact hs.layout
    obtain ⟨hl, he⟩ := Cursor.layout_iff (c := .start (text.take q)).mpr hl
    rw [tokens_eq, tokens_eq, hl, hf, he]
    simp

end Abacus
