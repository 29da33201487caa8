import Abacus.Proofs.Layout

namespace Abacus

namespace Cursor

def nth (c : Cursor) : Nat → Reading × Cursor
  | 0     => c.read
  | n + 1 => c.read.2.nth n

def Reaches (c d : Cursor) : Prop :=
  ∃ s, (∀ x ∈ s, isTerminator x = false) ∧ c.rest = s ++ d.rest ∧ d.pos = c.pos + s.length

def shift (k : Nat) (c : Cursor) : Cursor where
  pos  := c.pos + k
  rest := c.rest

theorem seek_eq_shift (text : List Char) (p : Nat) :
    seek text p = (start (text.drop p)).shift p := by
  simp [seek, start, shift]

namespace Reaches

variable {c d e : Cursor}

theorem trans : c.Reaches d → d.Reaches e → c.Reaches e := by
  intro ⟨s, hs, hr, hp⟩ ⟨t, ht, hr', hp'⟩
  refine ⟨s ++ t, List.forall_mem_append.mpr ⟨hs, ht⟩, by simp [hr, hr'], ?_⟩
  rw [List.length_append]
  omega

theorem of_spaces {s w : List Char} (hs : Spaces s) (hw : ∀ x ∈ w, isTerminator x = false)
    (hr : c.rest = s ++ (w ++ d.rest)) (hp : d.pos = c.pos + s.length + w.length) :
    c.Reaches d := by
  refine ⟨s ++ w, List.forall_mem_append.mpr ⟨fun x => hs.not_terminator, hw⟩, by simp [hr], ?_⟩
  rw [hp, List.length_append, Nat.add_assoc]

theorem eq_seek {text : List Char} {p : Nat} : (seek text p).Reaches d → d = seek text d.pos := by
  intro ⟨s, _, hr, hp⟩
  have hd : d.rest = text.drop (p + s.length) := by
    rw [←List.drop_drop, show text.drop p = s ++ d.rest from hr, List.drop_left]
  cases d
  simp_all [seek]

theorem length_visible : c.Reaches d →
    d.pos + (visible d.rest).length = c.pos + (visible c.rest).length := by
  intro ⟨s, hs, hr, hp⟩
  rw [hr, visible_append hs, List.length_append]
  omega

end Reaches

end Cursor

-- The readings that pass nothing but spaces, and so are given again and again.
def Reading.Final : Reading → Prop
  | eof | fault (.character _ _)    => True
  | lexeme _ | fault (.literal _ _) => False

namespace Reads

variable {c d : Cursor} {r : Reading}

theorem reaches (h : Reads c r d) : c.Reaches d := by
  cases h
  case lexeme s w hs hw _ hr hp => exact .of_spaces hs (fun x => hw.not_terminator) hr hp
  case literal s w hs hd _ _ hr hp =>
    exact .of_spaces hs (fun x hx => Cursor.not_terminator_of_isDigit (hd x hx)) hr hp
  case eof s hs _ hr hp              => exact ⟨s, fun x => hs.not_terminator, hr, hp⟩
  case character s x tl hs _ _ hr hp => exact ⟨s, fun x => hs.not_terminator, hr, hp⟩

theorem again (h : Reads c r d) (hr : r.Final) : Reads d r d := by
  cases h
  case lexeme | literal           => exact hr.elim
  case eof he _ _                 => exact .eof [] d nofun he rfl rfl
  case character x tl _ hx ht _ _ => exact .character [] x tl d nofun hx ht rfl rfl

theorem nth_eq_self (h : Reads d r d) (n : Nat) : d.nth n = (r, d) := by
  induction n
  case zero    => exact h.read_eq
  case succ hi => rw [Cursor.nth, h.read_eq, hi]

theorem length_lt (h : Reads c r d) (hr : ¬r.Final) : d.rest.length < c.rest.length := by
  cases h
  case lexeme s w _ hw _ hc _ =>
    have := List.length_pos_iff.mpr hw.ne_nil
    simp [hc]
    omega
  case literal s w _ _ hl _ hc _ =>
    simp [hc]
    omega
  case eof | character => exact absurd trivial hr

theorem shift (h : Reads c r d) (k : Nat) : Reads (c.shift k) (r.shift k) (d.shift k) := by
  cases h
  case lexeme s w hs hw hm hr hp =>
    exact .lexeme s w _ hs hw hm hr (by simp [Cursor.shift, hp]; omega)
  case eof s hs he hr hp => exact .eof s _ hs he hr (by simp [Cursor.shift, hp]; omega)
  case literal s w hs hd hl hm hr hp =>
    have := Reads.literal (c := c.shift k) s w (d.shift k) hs hd hl hm hr
      (by simp [Cursor.shift, hp]; omega)
    simpa [Cursor.shift, Reading.shift, Fault.shift, Nat.add_right_comm] using this
  case character s x tl hs hx ht hr hp =>
    have := Reads.character (c := c.shift k) s x tl (d.shift k) hs hx ht hr
      (by simp [Cursor.shift, hp]; omega)
    simpa [Cursor.shift, Reading.shift, Fault.shift, Nat.add_right_comm] using this

end Reads

theorem Cursor.read_induction {motive : Cursor → Prop}
    (final : ∀ c r d, Reads c r d → r.Final → motive c)
    (passed : ∀ c r d, Reads c r d → ¬r.Final → motive d → motive c) (c : Cursor) : motive c := by
  have ⟨r, d, h⟩ := Reads.exists_reads c
  by_cases hr : r.Final
  case pos => exact final c r d h hr
  case neg =>
    have := h.length_lt hr
    exact passed c r d h hr (read_induction final passed d)
termination_by c.rest.length

-- `Nth c n r d` reads: from `c` on the reading with number `n` is `r`, and leaves `d` behind.
inductive Nth : Cursor → Nat → Reading → Cursor → Prop
  | here (h : Reads c r d) : Nth c 0 r d
  | behind (h : Reads c r d) (hn : Nth d n r' e) : Nth c (n + 1) r' e

namespace Nth

variable {c d e : Cursor} {n m : Nat} {r : Reading}

theorem nth_eq (h : Nth c n r d) : c.nth n = (r, d) := by
  induction h
  case here h        => exact h.read_eq
  case behind h _ hi => rw [Cursor.nth, h.read_eq]; exact hi

theorem exists_nth (c : Cursor) (n : Nat) : ∃ r d, Nth c n r d := by
  induction n generalizing c <;> have ⟨r, d, h⟩ := Reads.exists_reads c
  case zero => exact ⟨_, _, .here h⟩
  case succ hi =>
    have ⟨_, _, hn⟩ := hi d
    exact ⟨_, _, .behind h hn⟩

theorem iff_nth_eq : Nth c n r d ↔ c.nth n = (r, d) where
  mp h  := h.nth_eq
  mpr h := by
    have ⟨_, _, hn⟩ := exists_nth c n
    cases h.symm.trans hn.nth_eq
    exact hn

theorem of_fst (h : (c.nth n).1 = r) : Nth c n r (c.nth n).2 :=
  iff_nth_eq.mpr <| Prod.ext h rfl

theorem nth_add (h : Nth c n r d) (m : Nat) : c.nth (n + 1 + m) = d.nth m := by
  induction h
  case here h        => rw [Nat.zero_add, Nat.add_comm, Cursor.nth, h.read_eq]
  case behind h _ hi => rw [Nat.succ_add, Nat.succ_add, ←hi, Nat.succ_add, Cursor.nth, h.read_eq]

theorem reaches (h : Nth c n r d) : c.Reaches d := by
  induction h
  case here h        => exact h.reaches
  case behind h _ hi => exact h.reaches.trans hi

theorem reads (h : Nth c n r d) : ∃ e, Reads e r d := by
  induction h
  case here h    => exact ⟨_, h⟩
  case behind hi => exact hi

theorem visible_eof (h : Nth c n .eof d) : visible d.rest = [] := by
  have ⟨_, h⟩ := h.reads
  cases h
  case eof he _ _ => exact visible_eq_nil he

theorem tail (h : Nth c n r d) (h' : Nth c (n + 1 + m) r' e) : Nth d m r' e :=
  iff_nth_eq.mpr <| h.nth_add m ▸ h'.nth_eq

theorem again (h : Nth c n r d) (hr : r.Final) (hm : n ≤ m) : c.nth m = (r, d) := by
  obtain rfl | hm := Nat.eq_or_lt_of_le hm
  case inl => exact h.nth_eq
  case inr =>
    have ⟨k, hk⟩ := Nat.exists_eq_add_of_lt hm
    have ⟨_, hd⟩ := h.reads
    rw [hk, Nat.add_right_comm, h.nth_add, hd.again hr |>.nth_eq_self]

theorem exists_final (c : Cursor) : ∃ n r d, Nth c n r d ∧ r.Final := by
  induction c using Cursor.read_induction
  case final h hr => exact ⟨_, _, _, .here h, hr⟩
  case passed h _ hi =>
    have ⟨_, _, _, hn, hr⟩ := hi
    exact ⟨_, _, _, .behind h hn, hr⟩

end Nth

theorem Cursor.nth_shift (c : Cursor) (k n : Nat) :
    (c.shift k).nth n = ((c.nth n).1.shift k, (c.nth n).2.shift k) := by
  have ⟨r, d, h⟩ := Nth.exists_nth c n
  rw [h.nth_eq]
  refine Nth.nth_eq ?_
  induction h
  case here h        => exact .here (h.shift k)
  case behind h _ hi => exact .behind (h.shift k) hi

end Abacus
