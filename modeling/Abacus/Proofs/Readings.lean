import Abacus.Proofs.Layout
import Abacus.Proofs.Offence

namespace Abacus

def Reading.fault? : Reading → Option Fault
  | fault f        => some f
  | lexeme _ | eof => none

namespace Feed

variable (feed : Feed)

theorem tokens_eq_filterMap : feed.tokens = feed.readings.filterMap (·.token.toOption) := by
  induction feed
  case lexeme l _ _ hi => exact congrArg (l.token :: ·) hi
  case eof | fault     => rfl

theorem fault?_eq_findSome? : feed.fault? = feed.readings.findSome? Reading.fault? := by
  induction feed
  case lexeme hi   => exact hi
  case eof | fault => rfl

theorem readings_eq :
    feed.readings = feed.lexemes.map .lexeme ++ [feed.fault?.elim .eof .fault] := by
  induction feed
  case lexeme l _ _ hi => exact congrArg (.lexeme l :: ·) hi
  case eof | fault     => rfl

end Feed

theorem Layout.readings {ls : List Lexeme} {cs : List Char} (h : Layout ls cs) :
    (Cursor.start cs).feed.readings = ls.map .lexeme ++ [.eof] := by
  have ⟨hl, hf⟩ := h.feed_start
  rw [Feed.readings_eq, hl, hf]
  rfl

structure Evaluation.Alike (e e' : Evaluation) : Prop where
  events  : e.events = e'.events
  outcome : e.outcome = e'.outcome

namespace Evaluation.Alike

variable {e e' : Evaluation}

theorem refuse {t : Token} {es : List Event} {d d' : Cursor} :
    (Evaluation.refuse t es d).Alike (.refuse t es d') :=
  ⟨rfl, rfl⟩

theorem before (h : e.Alike e') (es : List Event) : (e.before es).Alike (e'.before es) :=
  ⟨congrArg (es ++ ·) h.events, h.outcome⟩

theorem answer (h : e.Alike e') (sw : Switches) : e.answer sw = e'.answer sw := by
  rw [Evaluation.answer, h.events, h.outcome, Evaluation.answer]

end Evaluation.Alike

inductive Reading.Akin (R : Fault → Fault → Prop) : Reading → Reading → Prop
  | lexeme : Akin R (.lexeme l) (.lexeme l)
  | eof : Akin R .eof .eof
  | fault (h : R f g) : Akin R (.fault f) (.fault g)

theorem Reading.Akin.refl {R : Fault → Fault → Prop} (hR : ∀ f, R f f) : (r : Reading) → r.Akin R r
  | .lexeme _ => lexeme
  | .eof      => eof
  | .fault f  => fault (hR f)

theorem Reading.Akin.trans {R : Fault → Fault → Prop} {r₁ r₂ r₃ : Reading}
    (hR : ∀ {f g h}, R f g → R g h → R f h) : r₁.Akin R r₂ → r₂.Akin R r₃ → r₁.Akin R r₃
  | lexeme, lexeme    => lexeme
  | eof, eof          => eof
  | fault h, fault h' => fault (hR h h')

def Error.IsLexical : Error → Prop
  | lexical _ => True
  | _         => False

inductive Akin (R : Fault → Fault → Prop) : Except Error α → Except Error α → Prop
  | value : Akin R (.ok a) (.ok a)
  | error (h : ¬err.IsLexical) : Akin R (.error err) (.error err)
  | fault (h : R f g) : Akin R (.error (.lexical f)) (.error (.lexical g))

structure Evaluation.Akin (R : Fault → Fault → Prop) (e e' : Evaluation) : Prop where
  events  : e.events = e'.events
  outcome : Abacus.Akin R e.outcome e'.outcome

structure Answer.Akin (R : Fault → Fault → Prop) (a b : Answer α) : Prop where
  printed : a.printed = b.printed
  outcome : Abacus.Akin R a.outcome b.outcome

theorem Error.ofMisplaced_not_lexical {code : Code} {t : Option Token} :
    ¬(ofMisplaced code t).IsLexical := by
  cases t
  case none   => exact id
  case some t => by_cases h : t.value.Writable <;> simp [ofMisplaced, h, IsLexical]

theorem Error.ofDivision_not_lexical {sign : Token} {l : Int} : ¬(ofDivision sign l).IsLexical := by
  by_cases h : Numeral.Writable l <;> simp [ofDivision, h, IsLexical]

theorem Left.close_not_lexical {left : Left} {n : Nat} {err : Error}
    (h : left.close n = .error err) : ¬err.IsLexical := by
  cases left
  case nothing => cases h
  case waiting v o =>
    simp only [close] at h
    split at h
    case h_1 ha =>
      obtain ⟨_, ha⟩ := ite_eq_iff.mp ha |>.resolve_right (by simp)
      cases h
      exact Except.error.inj ha ▸ Error.ofDivision_not_lexical
    case h_2 =>
      obtain ⟨_, h⟩ := ite_eq_iff.mp h |>.resolve_left (by simp)
      exact Except.error.inj h ▸ id

theorem Akin.eq {r r' : Except Error α} : (Akin Eq r r') → r = r'
  | value | error _ => rfl
  | fault h         => by rw [h]

theorem Akin.print {R : Fault → Fault → Prop} {r r' : Except Error α} (h : Akin R r r')
    (sw : Switches) (es : List Event) : (sw.print r es).Akin R (sw.print r' es) := by
  refine ⟨rfl, ?_⟩
  rw [Switches.print, Switches.print]
  split
  case isTrue  => exact h
  case isFalse => exact .error id

namespace Evaluation.Akin

variable {R : Fault → Fault → Prop} {e e' : Evaluation}

theorem refuse {t : Token} {es : List Event} {d d' : Cursor} :
    (Evaluation.refuse t es d).Akin R (.refuse t es d') :=
  ⟨rfl, .error Error.ofMisplaced_not_lexical⟩

theorem before (h : e.Akin R e') (es : List Event) : (e.before es).Akin R (e'.before es) :=
  ⟨congrArg (es ++ ·) h.events, h.outcome⟩

theorem answer (h : e.Akin R e') (sw : Switches) : (e.answer sw).Akin R (e'.answer sw) := by
  rw [Evaluation.answer, h.events]
  exact h.outcome.print sw _

end Evaluation.Akin

def Feed.Akin (R : Fault → Fault → Prop) (f g : Feed) : Prop :=
  List.Forall₂ (Reading.Akin R) f.readings g.readings

namespace Feed.Akin

variable {R : Fault → Fault → Prop} {f g k : Feed}

-- Akin feeds lead to akin evaluations, when an operand is due and when one was read. The token that
-- was read last has no part in it.
theorem evaluation (h : f.Akin R g) :
    (∀ left current current',
      (Evaluation.operand left current f).Akin R (.operand left current' g)) ∧
    (∀ left n, (Evaluation.operator left n f).Akin R (.operator left n g)) := by
  induction f generalizing g
  case eof =>
    cases g <;> cases h <;> cases ‹Reading.Akin ..›
    refine ⟨fun _ _ _ => .refuse, fun left n => ?_⟩
    rw [Evaluation.operator, Evaluation.operator]
    cases hc : left.close n
    case error => exact ⟨rfl, .error <| Left.close_not_lexical hc⟩
    case ok    => exact ⟨rfl, .value⟩
  case fault =>
    cases g <;> cases h <;> cases ‹Reading.Akin ..›
    exact ⟨fun _ _ _ => ⟨rfl, .fault ‹_›⟩, fun _ _ => ⟨rfl, .fault ‹_›⟩⟩
  case lexeme l d next hi =>
    cases g <;> cases h <;> cases ‹Reading.Akin ..›
    case lexeme d' next' h =>
      obtain ⟨hn, hr⟩ := hi h
      constructor
      case left =>
        intro left current current'
        cases l
        case integer n => exact hr left n |>.before _
        case operator  => exact .refuse
      case right =>
        intro left n
        rw [Evaluation.operator, Evaluation.operator]
        cases hc : left.close n
        case error => exact ⟨rfl, .error <| Left.close_not_lexical hc⟩
        case ok r  =>
          cases l
          case integer    => exact .refuse
          case operator o => exact hn (.waiting r.1 o) _ _ |>.before _

theorem of_readings (hR : ∀ f, R f f) (h : f.readings = g.readings) : f.Akin R g := by
  rw [Feed.Akin, h]
  exact List.forall₂_same.mpr fun r _ => .refl hR r

theorem trans (hR : ∀ {f g h}, R f g → R g h → R f h) (h : f.Akin R g) (h' : g.Akin R k) :
    f.Akin R k := by
  have ⟨hl, hr⟩ := List.forall₂_iff_get.mp h
  have ⟨hl', hr'⟩ := List.forall₂_iff_get.mp h'
  refine List.forall₂_iff_get.mpr ⟨hl.trans hl', fun i hf hk => ?_⟩
  exact .trans hR (hr i hf (hl ▸ hf)) (hr' i (hl ▸ hf) hk)

end Feed.Akin

theorem evaluate_akin {R : Fault → Fault → Prop} {a b : String} (sw : Switches)
    (h : (Feed.ofText a).Akin R (.ofText b)) : (evaluate sw a).Akin R (evaluate sw b) :=
  h.evaluation.left .nothing none none |>.answer sw

theorem Feed.alike {f g : Feed} (h : f.readings = g.readings) (left : Left)
    (current : Option Token) :
    (Evaluation.operand left current f).Alike (.operand left current g) := by
  have hr : f.Akin Eq g := .of_readings (fun _ => rfl) h
  have ⟨he, ho⟩ := hr.evaluation.left left current current
  exact ⟨he, ho.eq⟩

theorem evaluate_congr {a b : String} (sw : Switches)
    (h : (Feed.ofText a).readings = (Feed.ofText b).readings) : evaluate sw a = evaluate sw b :=
  Feed.alike h .nothing none |>.answer sw

def Cursor.append (c : Cursor) (more : List Char) : Cursor where
  pos  := c.pos
  rest := c.rest ++ more

theorem Cursor.start_append (text more : List Char) :
    start (text ++ more) = (start text).append more :=
  rfl

theorem Ended.append {rest more : List Char} (h : Ended rest) (hm : Ended more) :
    Ended (rest ++ more) := by
  cases rest
  case nil  => exact hm
  case cons => exact h

theorem Undigited.append {rest more : List Char} (h : Undigited rest)
    (hm : rest = [] → Undigited more) : Undigited (rest ++ more) := by
  cases rest
  case nil  => exact hm rfl
  case cons => exact h

def Reading.Digits : Reading → Prop
  | lexeme l                    => l.IsInteger
  | fault (.literal _ _)        => True
  | eof | fault (.character _ _) => False

theorem Reads.append {c d : Cursor} {more : List Char} (h : Reads c r d)
    (hu : r.Digits → Undigited d.rest → Undigited (d.rest ++ more))
    (he : r = .eof → Ended d.rest → Ended (d.rest ++ more)) :
    Reads (c.append more) r (d.append more) := by
  cases h
  case lexeme s w hs hw hm hr hp =>
    exact .lexeme s w _ hs hw (fun hi => hu hi (hm hi)) (by simp [Cursor.append, hr]) hp
  case eof s hs hd hr hp =>
    exact .eof s _ hs (he rfl hd) (by simp [Cursor.append, hr]) hp
  case literal s w hs hd hl hm hr hp =>
    exact .literal s w _ hs hd hl (hu trivial hm) (by simp [Cursor.append, hr]) hp
  case character s x tl hs hx ht hr hp =>
    exact .character s x (tl ++ more) (d.append more) hs hx (by simp [Cursor.append, ht])
      (by simp [Cursor.append, hr]) hp

theorem Reads.append_ended {c d : Cursor} {more : List Char} (h : Reads c r d) (hm : Ended more) :
    Reads (c.append more) r (d.append more) :=
  h.append (fun _ hu => hu.append fun _ => hm.undigited) (fun _ => (·.append hm))

theorem Cursor.readings_append {more : List Char} (c : Cursor) (hm : Ended more) :
    (c.append more).feed.readings = c.feed.readings := by
  induction c using Cursor.feed_induction
  case lexeme c l d hr hf hi =>
    rw [(c.append more).feed_eq, (hr.append_ended hm).read_eq, hf]
    simp [Feed.readings, hi]
  case eof hr hf   => simp [hf, Cursor.feed_eq _, (hr.append_ended hm).read_eq, Feed.readings]
  case fault hr hf => simp [hf, Cursor.feed_eq _, (hr.append_ended hm).read_eq, Feed.readings]

theorem evaluate_append {more : List Char} (sw : Switches) (line : String) (hm : Ended more) :
    evaluate sw (line ++ String.ofList more) = evaluate sw line := by
  refine evaluate_congr sw ?_
  rw [Feed.ofText, String.toList_append, String.toList_ofList, Cursor.start_append,
    Cursor.readings_append _ hm, Feed.ofText]

theorem evaluate_visible (sw : Switches) (line : String) :
    evaluate sw (String.ofList (visible line.toList)) = evaluate sw line := by
  have ⟨rest, ht, hr⟩ := exists_visible line.toList
  have := evaluate_append sw (String.ofList (visible line.toList)) hr
  rw [←String.ofList_append, ←ht, String.ofList_toList] at this
  exact this.symm

end Abacus
