import Abacus.Proofs.Evaluates
import Abacus.Proofs.Nth
import Abacus.Tape

namespace Abacus

def Reading.answer (r : Reading) (sw : Switches) : Answer Token :=
  sw.print r.token r.events

def Answer.Ends (a : Answer Token) : Prop :=
  a.outcome = .ok .eof ∨ ∃ e, a.outcome = .error e

namespace Tape

inductive Move
  | pull
  | fork
  | next (k : Nat)
  deriving DecidableEq, Repr

def move (t : Tape) : Move → Option Reading × Tape
  | .pull   => let (r, t) := t.pull; (some r, t)
  | .fork   => (none, t.fork)
  | .next k => t.next k

structure Turn where
  move : Move
  answer : Option (Answer Token)
  cursor : Cursor

def turn (sw : Switches) (t : Tape) (m : Move) : Turn where
  move   := m
  answer := (t.move m).1.map (·.answer sw)
  cursor := (t.move m).2.cursor

@[simp]
theorem turn_move {sw : Switches} {t : Tape} {m : Move} : (t.turn sw m).move = m :=
  rfl

@[simp]
theorem turn_answer {sw : Switches} {t : Tape} {m : Move} :
    (t.turn sw m).answer = (t.move m).1.map (·.answer sw) :=
  rfl

@[simp]
theorem turn_cursor {sw : Switches} {t : Tape} {m : Move} :
    (t.turn sw m).cursor = (t.move m).2.cursor :=
  rfl

def run (sw : Switches) (t : Tape) : List Move → List Turn
  | []      => []
  | m :: ms => t.turn sw m :: run sw (t.move m).2 ms

section

variable (us : List Turn)

def made : Nat :=
  us.countP (·.move = .fork)

def given : Nat :=
  us.countP (·.answer.isSome)

def reached (c : Cursor) : Cursor :=
  us.getLast?.elim c Turn.cursor

def yielded (k : Nat) : List (Answer Token) :=
  us.filterMap fun u => if u.move = .next k then u.answer else none

def Live (k : Nat) : Prop :=
  k < made us ∧ ∀ a ∈ yielded us k, ¬a.Ends

def Pulls : Move → Prop
  | .pull   => True
  | .fork   => False
  | .next k => Live us k

end

-- How a turn goes behind the turns `us`, if the cursor was `c` at the beginning.
structure Served (sw : Switches) (c : Cursor) (us : List Turn) (u : Turn) : Prop where
  pulls (h : Pulls us u.move) :
    u.answer = some ((c.nth (given us)).1.answer sw) ∧ u.cursor = (c.nth (given us)).2
  rests (h : ¬Pulls us u.move) : u.answer = none ∧ u.cursor = reached us c

section

variable {us : List Turn} {u : Turn} {c : Cursor} {k : Nat}

@[simp]
theorem made_append : made (us ++ [u]) = made us + if u.move = .fork then 1 else 0 := by
  simp [made, List.countP_append, List.countP_cons]

@[simp]
theorem given_append : given (us ++ [u]) = given us + if u.answer.isSome then 1 else 0 := by
  simp [given, List.countP_append, List.countP_cons]

@[simp]
theorem reached_append : reached (us ++ [u]) c = u.cursor := by
  simp [reached]

@[simp]
theorem yielded_append :
    yielded (us ++ [u]) k = yielded us k ++ if u.move = .next k then u.answer.toList else [] := by
  by_cases h : u.move = .next k <;> cases ha : u.answer <;> simp [yielded, h, ha]

end

end Tape

theorem Reads.token_writable {c d : Cursor} {r : Reading} {t : Token} (h : Reads c r d)
    (ht : r.token = .ok t) : t.value.Writable := by
  cases r <;> cases ht
  case lexeme => exact Event.writable_lexeme.mpr h.writable
  case eof    => exact Event.writable_eof

theorem Reads.answer_outcome {c d : Cursor} {r : Reading} (sw : Switches) (h : Reads c r d) :
    (r.answer sw).outcome = r.token := by
  refine Switches.print_outcome fun e he => ?_
  rw [Reading.events] at he
  split at he
  case h_1 ht =>
    cases List.mem_singleton.mp he
    exact h.token_writable ht
  case h_2 => cases he

namespace Tape

theorem ends_iff {c d : Cursor} {r : Reading} (sw : Switches) (h : Reads c r d) :
    next.ends r ↔ (r.answer sw).Ends := by
  rw [Answer.Ends, h.answer_outcome]
  cases r
  case lexeme l => simp [next.ends, Reading.token, l.token_ne_eof]
  case eof      => simp [next.ends, Reading.token]
  case fault    => simp [next.ends, Reading.token]

section

variable {t : Tape} {k : Nat} {r : Reading} {d : Cursor}

theorem move_pull (h : Reads t.cursor r d) : t.move .pull = (some r, ⟨d, t.spent⟩) := by
  rw [move, Tape.pull, h.read_eq]

theorem move_next (hs : t.spent[k]? = some false) (h : Reads t.cursor r d) :
    t.move (.next k) = (some r, ⟨d, t.spent.set k (next.ends r)⟩) := by
  simp [move, Tape.next, hs, Tape.pull, h.read_eq]

theorem move_spent (hs : t.spent[k]? ≠ some false) : t.move (.next k) = (none, t) := by
  rw [move, Tape.next]
  split
  case h_1 hs' => exact absurd hs' hs
  case h_2     => rfl

end

-- The tape `t` is where the turns `us` lead, if the cursor was `c` at the beginning.
structure Stands (c : Cursor) (us : List Turn) (t : Tape) : Prop where
  ahead (n : Nat) : t.cursor.nth n = c.nth (given us + n)
  cursor : t.cursor = reached us c
  length : t.spent.length = made us
  live (k : Nat) : t.spent[k]? = some false ↔ Live us k
  unmade (k : Nat) (h : made us ≤ k) : yielded us k = []

namespace Stands

variable {sw : Switches} {c : Cursor} {us : List Turn} {t : Tape} {k : Nat} {m : Move}

theorem start (c : Cursor) : Stands c [] ⟨c, []⟩ where
  ahead n    := by rw [given, List.countP_nil, Nat.zero_add]
  cursor     := rfl
  length     := rfl
  live k     := by simp [Live, made]
  unmade k _ := rfl

theorem read (h : Stands c us t) : t.cursor.read = c.nth (given us) :=
  h.ahead 0

theorem reads (h : Stands c us t) : Reads t.cursor (c.nth (given us)).1 (c.nth (given us)).2 :=
  Reads.iff_read_eq.mpr h.read

theorem nth_read (h : Stands c us t) (n : Nat) :
    (c.nth (given us)).2.nth n = c.nth (given us + 1 + n) := by
  rw [←h.read, Nat.add_assoc, Nat.add_comm 1, ←h.ahead]
  rfl

theorem move_pull (h : Stands c us t) :
    t.move .pull = (some (c.nth (given us)).1, ⟨(c.nth (given us)).2, t.spent⟩) :=
  Tape.move_pull h.reads

theorem move_next (h : Stands c us t) (hl : Live us k) :
    t.move (.next k) = (some (c.nth (given us)).1,
      ⟨(c.nth (given us)).2, t.spent.set k (next.ends (c.nth (given us)).1)⟩) :=
  Tape.move_next (h.live k |>.mpr hl) h.reads

theorem move_spent (h : Stands c us t) (hl : ¬Live us k) : t.move (.next k) = (none, t) :=
  Tape.move_spent <| h.live k |>.not.mpr hl

theorem served (h : Stands c us t) (m : Move) : Served sw c us (t.turn sw m) := by
  cases m
  case pull => exact ⟨fun _ => by simp [h.move_pull], absurd trivial⟩
  case fork => exact ⟨False.elim, fun _ => ⟨rfl, h.cursor⟩⟩
  case next k =>
    by_cases hl : Live us k
    case pos => exact ⟨fun _ => by simp [h.move_next hl], absurd hl⟩
    case neg => exact ⟨(absurd · hl), fun _ => by simp [h.move_spent hl, h.cursor]⟩

theorem pull (h : Stands c us t) : Stands c (us ++ [t.turn sw .pull]) (t.move .pull).2 where
  ahead    := by simp [h.move_pull, h.nth_read]
  cursor   := by simp
  length   := by simpa [h.move_pull] using h.length
  live k   := by simpa [h.move_pull, Live] using h.live k
  unmade k := by simpa using h.unmade k

theorem fork (h : Stands c us t) : Stands c (us ++ [t.turn sw .fork]) (t.move .fork).2 where
  ahead    := by simpa [move, Tape.fork] using h.ahead
  cursor   := by simp
  length   := by simpa [move, Tape.fork] using h.length
  unmade k := by simpa using fun hk => h.unmade k <| Nat.le_of_succ_le hk
  live k   := by
    have hs : (t.move .fork).2.spent = t.spent ++ [false] := rfl
    have hl : Live (us ++ [t.turn sw .fork]) k ↔ k < made us + 1 ∧ ∀ a ∈ yielded us k, ¬a.Ends := by
      simp [Live]
    rw [hs, hl]
    -- The iterator that is made has given nothing yet.
    obtain hk | rfl | hk := Nat.lt_trichotomy k (made us)
    case inl =>
      rw [List.getElem?_append_left (h.length ▸ hk), h.live, Live]
      simp [hk, Nat.lt_succ_of_lt hk]
    case inr.inl =>
      rw [←h.length, List.getElem?_concat_length, h.length]
      simp [h.unmade]
    case inr.inr =>
      have hn : (t.spent ++ [false]).length ≤ k := by simpa [h.length] using Nat.succ_le_of_lt hk
      rw [List.getElem?_eq_none hn]
      exact iff_of_false nofun fun hl => Nat.not_lt_of_le hk hl.left

theorem nextSpent (h : Stands c us t) (hl : ¬Live us k) :
    Stands c (us ++ [t.turn sw (.next k)]) (t.move (.next k)).2 where
  ahead    := by simpa [h.move_spent hl] using h.ahead
  cursor   := by simp
  length   := by simpa [h.move_spent hl] using h.length
  live j   := by simpa [h.move_spent hl, Live] using h.live j
  unmade j := by simpa [h.move_spent hl] using h.unmade j

theorem nextLive (h : Stands c us t) (hl : Live us k) :
    Stands c (us ++ [t.turn sw (.next k)]) (t.move (.next k)).2 where
  ahead    := by simp [h.move_next hl, h.nth_read]
  cursor   := by simp
  length   := by simpa [h.move_next hl] using h.length
  unmade j hj := by
    replace hj : made us ≤ j := by simpa using hj
    have hk : k ≠ j := Nat.ne_of_lt <| Nat.lt_of_lt_of_le hl.left hj
    simpa [hk] using h.unmade j hj
  live j   := by
    by_cases hk : k = j
    case neg => simpa [Live, h.move_next hl, hk] using h.live j
    case pos =>
      subst hk
      have he := ends_iff sw h.reads
      have hk : k < t.spent.length := h.length ▸ hl.left
      have hi : (∀ a ∈ yielded us k ++ [(c.nth (given us)).1.answer sw], ¬a.Ends) ↔
          ¬((c.nth (given us)).1.answer sw).Ends := by
        rw [List.forall_mem_append, List.forall_mem_singleton, and_iff_right hl.right]
      simp [h.move_next hl, Live, List.getElem?_set_self hk, hl.left, ←he] at hi ⊢
      exact hi.symm

theorem move (h : Stands c us t) (m : Move) :
    Stands c (us ++ [t.turn sw m]) (t.move m).2 := by
  cases m
  case pull => exact h.pull
  case fork => exact h.fork
  case next k =>
    by_cases hl : Live us k
    case pos => exact h.nextLive hl
    case neg => exact h.nextSpent hl

theorem run {ms : List Move} (h : Stands c us t) (ht : t.run sw ms = before ++ u :: more) :
    Served sw c (us ++ before) u := by
  induction ms generalizing us t before
  case nil => simp [Tape.run] at ht
  case cons m ms hi =>
    cases before
    case nil =>
      cases ht
      rw [List.append_nil]
      exact h.served m
    case cons v before =>
      rw [Tape.run, List.cons_append] at ht
      obtain ⟨rfl, hr⟩ := List.cons.inj ht
      rw [List.append_cons]
      exact hi (h.move m) hr

end Stands

theorem run_moves (sw : Switches) (t : Tape) (ms : List Move) : (t.run sw ms).map Turn.move = ms := by
  induction ms generalizing t
  case nil        => rfl
  case cons m _ hi => exact congrArg (m :: ·) <| hi _

theorem yielded_eq_append {us : List Turn} {as bs : List (Answer Token)} {a : Answer Token} {k : Nat}
    (h : yielded us k = as ++ a :: bs) :
    ∃ before u more, us = before ++ u :: more ∧ yielded before k = as ∧ u.move = .next k ∧
      u.answer = some a := by
  obtain ⟨us₁, us₂, rfl, h₁, h₂⟩ := List.filterMap_eq_append_iff.mp h
  obtain ⟨vs, u, more, rfl, hv, hu, -⟩ := List.filterMap_eq_cons_iff.mp h₂
  refine ⟨us₁ ++ vs, u, more, by simp, ?_, ?_⟩
  case refine_1 =>
    rw [yielded, List.filterMap_append, h₁, List.filterMap_eq_nil_iff.mpr hv, List.append_nil]
  case refine_2 => simpa using hu

theorem not_ends_of_served {sw : Switches} {c : Cursor} {us : List Turn} {k : Nat}
    (h : ∀ before u more, us = before ++ u :: more → Served sw c before u)
    (hy : yielded us k = as ++ a :: bs) : ∀ b ∈ as, ¬b.Ends := by
  obtain ⟨before, u, more, hu, rfl, hm, ha⟩ := yielded_eq_append hy
  have hl : Pulls before u.move := by
    by_contra hr
    cases ha.symm.trans <| (h before u more hu).rests hr |>.left
  rw [hm] at hl
  exact hl.right

-- Whoever takes a reading, by an iterator or without one, takes the first that was not given yet, and
-- leaves the cursor behind it. All other moves are not answered and leave the cursor where it is. An
-- iterator that has given the end of the line or a fault gives nothing more.
theorem run_served (sw : Switches) (text : String) (ms : List Move) :
    ((ofText text).run sw ms).map Turn.move = ms ∧
    (∀ us u more, (ofText text).run sw ms = us ++ u :: more →
      Served sw (.start text.toList) us u) ∧
    ∀ k as a bs, yielded ((ofText text).run sw ms) k = as ++ a :: bs →
      (∀ b ∈ as, ¬b.Ends) ∧ (a.Ends → bs = []) := by
  have h (us u more) (hr : (ofText text).run sw ms = us ++ u :: more) :
      Served sw (.start text.toList) us u := Stands.start _ |>.run hr
  refine ⟨run_moves sw _ ms, h, fun k as a bs hy => ⟨not_ends_of_served h hy, fun ha => ?_⟩⟩
  cases bs
  case nil => rfl
  case cons b bs =>
    rw [List.append_cons] at hy
    exact absurd ha <| not_ends_of_served h hy a (by simp)

end Tape

end Abacus
