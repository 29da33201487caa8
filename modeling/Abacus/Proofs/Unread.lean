import Abacus.Proofs.Flaws
import Abacus.Proofs.Joined
import Abacus.Proofs.Progress

namespace Abacus

-- How far a text was looked at when it came to a cursor at `p`. A character that has no place in a
-- line is looked at but not passed.
def seen (p : Nat) : Except Error α → Nat
  | .error (.lexical (.character _ _)) => p + 1
  | _                                  => p

theorem le_seen {p : Nat} (r : Except Error α) : p ≤ seen p r := by
  unfold seen
  split
  · exact Nat.le_succ p
  · exact Nat.le_refl p

namespace Cursor

variable {c d : Cursor} {q : Nat} {s more : List Char}

def take (q : Nat) (c : Cursor) : Cursor where
  pos  := c.pos
  rest := c.rest.take (q - c.pos)

def splice (q : Nat) (more : List Char) (c : Cursor) : Cursor :=
  (c.take q).append more

theorem take_rest (hr : c.rest = s ++ d.rest) (hp : d.pos = c.pos + s.length) (hq : d.pos ≤ q) :
    (c.take q).rest = s ++ (d.take q).rest := by
  have hn : q - c.pos = s.length + (q - d.pos) := by omega
  rw [take, hr, hn, List.take_length_add_append, take]

end Cursor

namespace Reads

variable {c d : Cursor} {r : Reading} {q : Nat} {more : List Char}

theorem take (h : Reads c r d) (hn : r ≠ .eof) (hq : seen d.pos r.token ≤ q) :
    Reads (c.take q) r (d.take q) := by
  have hd : d.pos ≤ q := Nat.le_trans (le_seen r.token) hq
  cases h
  case eof => exact absurd rfl hn
  case lexeme s w hs hw hm hr hp =>
    have ht : (c.take q).rest = s ++ w ++ (d.take q).rest :=
      Cursor.take_rest (by simp [hr]) (by simp [hp, Nat.add_assoc]) hd
    exact .lexeme s w _ hs hw (fun hi => (hm hi).take _) (by simp [ht]) hp
  case literal s w hs hw hl hm hr hp =>
    have ht : (c.take q).rest = s ++ w ++ (d.take q).rest :=
      Cursor.take_rest (by simp [hr]) (by simp [hp, Nat.add_assoc]) hd
    exact .literal s w _ hs hw hl (hm.take _) (by simp [ht]) hp
  case character s x tl hs hx ht hr hp =>
    have ⟨n, hn⟩ : ∃ n, q - d.pos = n + 1 := Nat.exists_eq_add_one.mpr <| Nat.sub_pos_of_lt hq
    exact .character s x (tl.take n) (d.take q) hs hx (by simp [Cursor.take, ht, hn])
      (Cursor.take_rest hr hp hd) hp

theorem splice (h : Reads c r d) (hn : r ≠ .eof) (hq : seen d.pos r.token ≤ q)
    (hp : Parted (c.take q).rest more) : Reads (c.splice q more) r (d.splice q more) :=
  have h := h.take hn hq
  h.append (h.undigited_append hp) (absurd · hn)

end Reads

namespace Cursor

variable {c d e : Cursor} {l m : Lexeme} {f : Fault} {next : Feed} {q : Nat} {more : List Char}

theorem feed_eq_round (h : c.feed = .lexeme l d (.lexeme m e next)) :
    d.pos ≤ e.pos ∧ next = e.feed :=
  have ⟨h, hn⟩ := feed_eq_lexeme (feed_eq_lexeme h).right.symm
  ⟨h.reaches.pos_le, hn⟩

theorem feed_splice (hf : c.feed = .lexeme l d next) (hq : d.pos ≤ q)
    (hp : Parted (c.take q).rest more) :
    (c.splice q more).feed = .lexeme l (d.splice q more) (d.splice q more).feed ∧
      Parted (d.take q).rest more := by
  have h := feed_eq_lexeme hf |>.left
  have ⟨s, _, hr, hs⟩ := h.reaches
  refine ⟨?_, (take_rest hr hs hq ▸ hp).of_append⟩
  rw [feed_eq, (h.splice nofun hq hp).read_eq]

theorem feed_splice_fault (hf : c.feed = .fault f d)
    (hq : seen d.pos (.error (.lexical f) : Except Error Int) ≤ q)
    (hp : Parted (c.take q).rest more) : (c.splice q more).feed = .fault f (d.splice q more) := by
  have h := feed_eq_fault hf
  rw [feed_eq, (h.splice nofun (by cases f <;> exact hq) hp).read_eq]

theorem feed_splice_round (hf : c.feed = .lexeme l d (.lexeme m e next)) (hq : e.pos ≤ q)
    (hp : Parted (c.take q).rest more) :
    (c.splice q more).feed =
        .lexeme l (d.splice q more) (.lexeme m (e.splice q more) (e.splice q more).feed) ∧
      Parted (e.take q).rest more := by
  have ⟨hs, hp⟩ := feed_splice hf (Nat.le_trans (feed_eq_round hf).left hq) hp
  have ⟨hs', hp⟩ := feed_splice (feed_eq_lexeme hf).right.symm hq hp
  exact ⟨hs' ▸ hs, hp⟩

end Cursor

theorem Evaluates.splice {left : Left} {c : Cursor} {e : Evaluation} {q : Nat} {more : List Char}
    (r : Evaluates left current c.feed e) (he : e.outcome = .error err) (hn : .eof ∉ e.tokens)
    (hq : seen e.cursor.pos e.outcome ≤ q) (hp : Parted (c.take q).rest more) :
    (Evaluation.operand left current (c.splice q more).feed).Alike e := by
  generalize hf : c.feed = feed at r
  have hc := Nat.le_trans (le_seen _) hq
  induction r generalizing c
  -- The first two have looked at the end of the line.
  case eof       => exact absurd (.head _) hn
  case failedEof => exact absurd (.tail _ (.head _)) hn
  case value     => cases he
  case operator  => exact (Cursor.feed_splice hf hc hp).left ▸ .refuse
  case fault     => exact Cursor.feed_splice_fault hf hq hp ▸ ⟨rfl, rfl⟩
  case operandFault =>
    have hd := (Cursor.feed_eq_lexeme hf).right.symm
    have hq' := Nat.le_trans (Cursor.feed_eq_fault hd).reaches.pos_le hc
    obtain ⟨hs, hp⟩ := Cursor.feed_splice hf hq' hp
    rw [hs, Evaluation.operand, Cursor.feed_splice_fault hd hq hp]
    exact ⟨rfl, rfl⟩
  case failed h =>
    rw [(Cursor.feed_splice_round hf hc hp).left, Evaluation.operand, Evaluation.operator, h]
    exact ⟨rfl, rfl⟩
  case operand h =>
    rw [(Cursor.feed_splice_round hf hc hp).left, Evaluation.operand, Evaluation.operator, h]
    exact .refuse
  case round h r hi =>
    have hn' := Cursor.feed_eq_round hf |>.right
    have hd := Nat.le_trans (hn' ▸ r).reaches.pos_le hc
    obtain ⟨hs, hp⟩ := Cursor.feed_splice_round hf hd hp
    rw [hs, Evaluation.operand, Evaluation.operator, h]
    refine (hi he (fun ht => hn ?_) hq hp hn'.symm hc).before _ |>.before [_]
    exact Evaluation.tokens_before ▸ List.mem_append_right _ ht

-- An error that comes before the end of the line depends on nothing but what was looked at.
-- Whatever stands behind that, the outcome is the same and so is what is printed.
theorem evaluate_unread (sw : Switches) (text w : String) (err : Error)
    (he : (evaluate sw text).outcome = .error err)
    (hn : .eof ∉ (Calculator.ofText text).expression.tokens) :
    let q := seen (Calculator.ofText text).expression.after.cursor.pos (evaluate sw text).outcome
    let u := String.ofList (text.toList.take q)
    ¬((∃ x ∈ u.toList.getLast?, x.isDigit) ∧ ∃ x ∈ w.toList.head?, x.isDigit) →
      evaluate sw (u ++ w) = evaluate sw text := by
  intro q u hd
  have ho : (Calculator.ofText text).expression.outcome = .error err :=
    (evaluate_outcome sw text).symm.trans he
  have hq : seen (Calculator.ofText text).expression.after.cursor.pos
      (Calculator.ofText text).expression.outcome ≤ q := by
    simp only [q, he, ho, Nat.le_refl]
  have hu : u.toList = ((Cursor.start text.toList).take q).rest := String.toList_ofList
  have hp : Parted ((Cursor.start text.toList).take q).rest w.toList := hu ▸ .of_not hd
  have hs : (Cursor.start text.toList).splice q w.toList = .start (u ++ w).toList := by
    simp [Cursor.splice, Cursor.take, Cursor.append, Cursor.start, Cursor.seek, u]
  have ha := Evaluation.evaluates .nothing none (.ofText text) |>.splice ho hn hq hp
  rw [hs] at ha
  exact ha.answer sw

theorem evaluate_unread_division :
    (evaluate ⟨true, true⟩ "7 / 0 + 1").outcome = .error (.divisionByZero (.operator .divide) 7) ∧
      .eof ∉ (Calculator.ofText "7 / 0 + 1").expression.tokens ∧
      seen (Calculator.ofText "7 / 0 + 1").expression.after.cursor.pos
        (evaluate ⟨true, true⟩ "7 / 0 + 1").outcome = 7 ∧
      (¬((∃ x ∈ "7 / 0 +".toList.getLast?, x.isDigit) ∧ ∃ x ∈ "2 $".toList.head?, x.isDigit)) ∧
      evaluate ⟨true, true⟩ ("7 / 0 +" ++ "2 $") = evaluate ⟨true, true⟩ "7 / 0 + 1" := by
  have he : (evaluate ⟨true, true⟩ "7 / 0 + 1").outcome =
      .error (.divisionByZero (.operator .divide) 7) := by decide +kernel
  have hn : .eof ∉ (Calculator.ofText "7 / 0 + 1").expression.tokens := by decide +kernel
  have hq : seen (Calculator.ofText "7 / 0 + 1").expression.after.cursor.pos
      (evaluate ⟨true, true⟩ "7 / 0 + 1").outcome = 7 := by decide +kernel
  have hd : ¬((∃ x ∈ "7 / 0 +".toList.getLast?, x.isDigit) ∧
      ∃ x ∈ "2 $".toList.head?, x.isDigit) := by simp
  have h := evaluate_unread ⟨true, true⟩ "7 / 0 + 1" "2 $" _ he hn
  simp only [hq] at h
  exact ⟨he, hn, hq, hd, h hd⟩

end Abacus
