import Abacus.Proofs.Flaws
import Abacus.Proofs.Nth

namespace Abacus

-- A flaw that no character without a place stands left of.
structure Met (p : Nat) (v : List Char) (q : Nat) (f : Fault) : Prop where
  flaw  : Flaw p v q f
  clear : ∀ r x column, Flaw p v r (.character x column) → q ≤ r

namespace Fault

def column : Fault → Nat
  | character _ column | literal _ column => column

def width : Fault → Nat
  | character _ _    => 0
  | literal digits _ => digits

end Fault

theorem Leftmost.met (h : Leftmost p v q f) : Met p v q f :=
  ⟨h.flaw, fun r _ _ => h.least r _⟩

theorem Flaw.column_eq : Flaw p v q f → f.column = q + 1
  | character _ _ _ _ _ | literal _ _ _ _ _ _ => rfl

namespace Reads

variable {c d : Cursor} {r : Reading} {f : Fault} {q : Nat}

theorem met_iff (h : Reads c r d) :
    Met c.pos (visible c.rest) q f ↔
      (∃ n, r = .fault f ∧ f = .literal n (q + 1) ∧ d.pos = q + n) ∨
        Met d.pos (visible d.rest) q f where
  mp hm :=
    h.flaw_iff.mp hm.flaw |>.imp_right fun hf =>
      ⟨hf, fun r x column hg => hm.clear r x column <| h.flaw_iff.mpr (.inr hg)⟩
  mpr hm := by
    have hg {r x column} (hg : Flaw c.pos (visible c.rest) r (.character x column)) :
        Flaw d.pos (visible d.rest) r (.character x column) :=
      h.flaw_iff.mp hg |>.resolve_left nofun
    cases hm
    case inl hm =>
      have ⟨n, _, _, hq⟩ := hm
      refine ⟨h.flaw_iff.mpr (.inl hm), fun r x column hr => ?_⟩
      have := hg hr |>.le
      omega
    case inr hm =>
      exact ⟨h.flaw_iff.mpr (.inr hm.flaw), fun r x column hr => hm.clear r x column (hg hr)⟩

theorem met_fault (h : Reads c (.fault f) d) :
    ∃ q, Met c.pos (visible c.rest) q f ∧ d.pos = q + f.width := by
  have ⟨q, hl, _⟩ := h.flaw_fault
  refine ⟨q, hl.met, ?_⟩
  have hq := hl.flaw.column_eq
  cases h <;> simp [Fault.column, Fault.width] at hq ⊢ <;> omega

end Reads

namespace Nth

variable {c d e : Cursor} {n m k q : Nat} {f : Fault}

theorem met (h : Nth c n (.fault f) d) :
    ∃ q, Met c.pos (visible c.rest) q f ∧ d.pos = q + f.width := by
  generalize hr : Reading.fault f = r at h
  induction h
  case here h => exact (hr ▸ h).met_fault
  case behind h _ hi =>
    have ⟨q, hm, hp⟩ := hi hr
    exact ⟨q, h.met_iff.mpr (.inr hm), hp⟩

theorem exists_met (hm : Met c.pos (visible c.rest) q f) : ∃ n d, Nth c n (.fault f) d := by
  induction c using Cursor.read_induction
  case passed r d h _ hi =>
    obtain ⟨_, hr, _⟩ | hm := h.met_iff.mp hm
    case inl => exact ⟨0, d, .here (hr ▸ h)⟩
    case inr =>
      have ⟨_, _, hn⟩ := hi hm
      exact ⟨_, _, .behind h hn⟩
  case final r d h hr =>
    cases r
    case lexeme => exact hr.elim
    case eof    => exact h.not_flaw_eof hm.flaw |>.elim
    case fault g =>
      cases g
      case literal => exact hr.elim
      case character =>
        -- Nothing is left of the fault, and it lets nothing through.
        have ⟨q', hl, _⟩ := h.flaw_fault
        cases Nat.le_antisymm (hm.clear _ _ _ hl.flaw) (hl.least _ _ hm.flaw)
        exact ⟨0, d, .here (hm.flaw.unique hl.flaw ▸ h)⟩

theorem not_again {column : Nat} (h : Nth c n (.fault (.literal k column)) d)
    (h' : Nth c m (.fault (.literal k column)) e) : ¬n < m := by
  intro hm
  have ⟨i, hi⟩ := Nat.exists_eq_add_of_lt hm
  rw [hi, Nat.add_right_comm] at h'
  have ⟨q, hf, hp⟩ := h.met
  have ⟨q', hf', _⟩ := h.tail h' |>.met
  have := hf.flaw.column_eq.symm.trans hf'.flaw.column_eq
  have := hf'.flaw.le
  have := hf.flaw.literal_pos
  simp only [Fault.width] at hp
  omega

theorem pos_lt (h : Nth c n (.fault f) d) (hm : m < n) : (c.nth m).2.pos < f.column := by
  have ⟨i, hi⟩ := Nat.exists_eq_add_of_lt hm
  rw [hi, Nat.add_right_comm] at h
  have ⟨_, e, hn⟩ := exists_nth c m
  have ⟨q, hf, _⟩ := hn.tail h |>.met
  rw [hn.nth_eq, hf.flaw.column_eq]
  exact Nat.lt_succ_of_le hf.flaw.le

theorem eq_seek {text : List Char} (h : Nth (.start text) n (.fault f) d)
    (hq : f.column = q + 1) : d = .seek text (q + f.width) := by
  have ⟨q', hm, hp⟩ := h.met
  cases hq.symm.trans hm.flaw.column_eq
  exact hp ▸ h.reaches.eq_seek

end Nth

namespace Cursor

variable {c : Cursor} {text : List Char} {f : Fault} {n k q : Nat} {x : Char}

theorem exists_nth_fault :
    (∃ n, (c.nth n).1 = .fault f) ↔ ∃ q, Met c.pos (visible c.rest) q f where
  mp  := fun ⟨_, h⟩ =>
    have ⟨q, hm, _⟩ := Nth.of_fst h |>.met
    ⟨q, hm⟩
  mpr := fun ⟨_, h⟩ =>
    have ⟨n, _, hn⟩ := Nth.exists_met h
    ⟨n, congrArg Prod.fst hn.nth_eq⟩

theorem nth_literal (h : ((start text).nth n).1 = .fault (.literal k (q + 1))) :
    ((start text).nth n).2 = seek text (q + k) ∧
      (∀ m, ((start text).nth m).1 = .fault (.literal k (q + 1)) → m = n) ∧
      (∀ m, m < n → ((start text).nth m).2.pos ≤ q) ∧
      ∀ m, (start text).nth (n + 1 + m) =
        (((start (text.drop (q + k))).nth m).1.shift (q + k),
          ((start (text.drop (q + k))).nth m).2.shift (q + k)) := by
  have hn := Nth.of_fst h
  have hd : ((start text).nth n).2 = seek text (q + k) := hn.eq_seek rfl
  refine ⟨hd, fun m hm => ?_, fun m hm => Nat.le_of_lt_succ <| hn.pos_lt hm, fun m => ?_⟩
  case refine_1 =>
    have hm := Nth.of_fst hm
    have := hn.not_again hm
    have := hm.not_again hn
    omega
  case refine_2 => rw [hn.nth_add, hd, seek_eq_shift, nth_shift]

theorem nth_character (h : ((start text).nth n).1 = .fault (.character x (q + 1))) (hm : n ≤ m) :
    (start text).nth m = (.fault (.character x (q + 1)), seek text q) := by
  have hn := Nth.of_fst h
  have hd : ((start text).nth n).2 = seek text q := hn.eq_seek rfl
  rw [hn.again trivial hm, hd]

theorem exists_nth_eof (h : ∀ x ∈ visible text, ¬Foreign x) :
    ∃ n, ∀ m, n ≤ m → (start text).nth m = (.eof, seek text (visible text).length) := by
  have ⟨n, r, d, hn, hr⟩ := Nth.exists_final (start text)
  refine ⟨n, fun m hm => ?_⟩
  rw [hn.again hr hm]
  cases r
  case lexeme => exact hr.elim
  case eof =>
    have hp : d.pos + (visible d.rest).length = 0 + (visible text).length :=
      hn.reaches.length_visible
    rw [hn.visible_eof, Nat.zero_add] at hp
    rw [hn.reaches.eq_seek, ←hp]
    rfl
  case fault f =>
    cases f
    case literal => exact hr.elim
    case character =>
      obtain ⟨_, hm, -⟩ := hn.met
      cases hm.flaw
      case character s t _ hv hx =>
        have hv : visible text = s ++ _ :: t := hv
        exact absurd hx <| h _ <| by simp [hv]

end Cursor

theorem foreign_iff_of_mem_visible {text : List Char} (h : x ∈ visible text) :
    Foreign x ↔ x ∉ " 0123456789+-*/".toList :=
  foreign_iff.trans <| and_iff_right <| by simpa using List.mem_takeWhile_imp h

theorem Fault.detail_ne_empty (f : Fault) : f.detail ≠ "" := by
  have ha {s t : String} (h : s ≠ "") : s ++ t ≠ "" := fun he =>
    h <| String.append_eq_empty_iff.mp he |>.left
  cases f
  case character => exact ha <| ha <| ha <| by decide
  case literal   => exact ha <| ha <| ha <| by decide

-- The faults of a line are its flaws. The leftmost one ends the feed, and if reading goes on, all
-- are met that stand left of the first character without a place.
theorem lexical_faults (text : String) :
    -- The line is read to its end unless it has a flaw.
    ((∃ f, (Feed.ofText text).fault? = some f) ↔
      (∃ x ∈ visible text.toList, x ∉ " 0123456789+-*/".toList) ∨
        ∃ s w t, visible text.toList = s ++ (w ++ t) ∧ Overlong s w t) ∧
    -- The fault is the leftmost flaw, and what is read before it stands left of it.
    (∀ f, (Feed.ofText text).fault? = some f ↔ ∃ q, Leftmost 0 (visible text.toList) q f) ∧
    (∀ q f, Leftmost 0 (visible text.toList) q f →
      (Feed.ofText text).tokens ++ [.eof] =
          (Feed.ofText (String.ofList (text.toList.take q))).tokens ∧
        (Feed.ofText (String.ofList (text.toList.take q))).fault? = none) ∧
    -- How a fault is told.
    (∀ f, (Error.lexical f).report? =
      some ⟨.lexical, some .malformed, none, some ("Syntax Error (" ++ f.detail ++ ")")⟩) ∧
    (∀ x column, (Fault.character x column).detail =
      "unexpected " ++ Text.quoted x.toString ++ " at column " ++ Numeral.decimal column) ∧
    (∀ n column, (Fault.literal n column).detail =
      "integer literal of " ++ Numeral.decimal n ++ " digits at column " ++
        Numeral.decimal column) ∧
    -- What is met if reading goes on.
    (∀ f, (∃ n, ((Cursor.start text.toList).nth n).1 = .fault f) ↔
      ∃ q, Met 0 (visible text.toList) q f) ∧
    -- A literal that is too long is reported once, and reading goes on right behind it.
    (∀ n q k, ((Cursor.start text.toList).nth n).1 = .fault (.literal k (q + 1)) →
      ((Cursor.start text.toList).nth n).2 = .seek text.toList (q + k) ∧
      (∀ m, ((Cursor.start text.toList).nth m).1 = .fault (.literal k (q + 1)) → m = n) ∧
      (∀ m, m < n → ((Cursor.start text.toList).nth m).2.pos ≤ q) ∧
      ∀ m, (Cursor.start text.toList).nth (n + 1 + m) =
        (((Cursor.start (text.toList.drop (q + k))).nth m).1.shift (q + k),
          ((Cursor.start (text.toList.drop (q + k))).nth m).2.shift (q + k))) ∧
    -- A character without a place is reported for ever.
    (∀ n q x, ((Cursor.start text.toList).nth n).1 = .fault (.character x (q + 1)) →
      ∀ m, n ≤ m → (Cursor.start text.toList).nth m =
        (.fault (.character x (q + 1)), .seek text.toList q)) ∧
    ((∀ x ∈ visible text.toList, x ∈ " 0123456789+-*/".toList) →
      ∃ n, ∀ m, n ≤ m → (Cursor.start text.toList).nth m =
        (.eof, .seek text.toList (visible text.toList).length)) := by
  refine ⟨?_, fun f => Cursor.fault?_eq_some, fun q f h => ?_,
    fun f => congrArg some <| Report.malformed_some f.detail_ne_empty, fun _ _ => rfl,
    fun _ _ => rfl, fun f => Cursor.exists_nth_fault, fun n q k => Cursor.nth_literal,
    fun n q x h m => Cursor.nth_character h, fun h => Cursor.exists_nth_eof fun x hx => ?_⟩
  case refine_1 =>
    refine Cursor.exists_fault.trans <| Flaw.exists_iff.trans <| or_congr_left ?_
    exact exists_congr fun x => and_congr_right foreign_iff_of_mem_visible
  case refine_2 =>
    rw [Feed.ofText, Feed.ofText, String.toList_ofList]
    exact Feed.take_tokens h
  case refine_3 =>
    rw [foreign_iff_of_mem_visible hx]
    exact not_not_intro <| h x hx

example :
    (Cursor.start "1 # 2".toList).nth 3 = (.fault (.character '#' 3), .seek "1 # 2".toList 2) := by
  decide

end Abacus
