import Abacus.Proofs.Joined
import Mathlib.Logic.Relation

namespace Abacus

namespace Feed.Akin

variable {R : Fault → Fault → Prop} {f g : Feed}

theorem of_tokens (h : f.tokens = g.tokens) : f.Akin (fun _ _ => True) g := by
  induction f generalizing g
  case eof =>
    cases g
    case lexeme l _ _ => cases l.token_ne_eof (List.cons.inj h).left.symm
    case eof          => exact .cons .eof .nil
    case fault        => cases h
  case fault =>
    cases g
    case lexeme | eof => cases h
    case fault        => exact .cons (.fault trivial) .nil
  case lexeme l _ _ hi =>
    cases g
    case lexeme =>
      have ⟨hl, ht⟩ := List.cons.inj h
      cases Lexeme.token_inj.mp hl
      exact .cons .lexeme (hi ht)
    case eof   => cases l.token_ne_eof (List.cons.inj h).left
    case fault => cases h

theorem tokens_eq (h : f.Akin R g) : f.tokens = g.tokens := by
  induction f generalizing g <;> cases g <;> cases h <;> cases ‹Reading.Akin ..›
  case lexeme l _ _ hi _ _ h => exact congrArg (l.token :: ·) (hi h)
  case eof | fault           => rfl

end Feed.Akin

inductive Fault.Moved : Fault → Fault → Prop
  | character : Moved (.character x i) (.character x j)
  | literal : Moved (.literal n i) (.literal n j)

namespace Fault.Moved

theorem refl : (f : Fault) → f.Moved f
  | .character _ _ => .character
  | .literal _ _   => .literal

theorem trans {f g h : Fault} : f.Moved g → g.Moved h → f.Moved h
  | character, character => character
  | literal, literal     => literal

theorem shift (i j : Nat) : (f : Fault) → (f.shift i).Moved (f.shift j)
  | .character _ _ => .character
  | .literal _ _   => .literal

end Fault.Moved

namespace Cursor

variable {R : Fault → Fault → Prop} {c : Cursor} {s t t' : List Char}

-- What follows a text can be replaced by what reads alike, if no run of digits goes on into it.
theorem akin_joined (hR : ∀ f, R f f) (hb : ∀ x ∈ c.rest, isTerminator x = false)
    (hp : Parted c.rest t) (hp' : Parted c.rest t')
    (h : (c.behind t).feed.Akin R (c.behind t').feed) :
    (c.append t).feed.Akin R (c.append t').feed := by
  have hr (rs : List Reading) : List.Forall₂ (Reading.Akin R) rs rs :=
    List.forall₂_same.mpr fun r _ => .refl hR r
  rw [Feed.Akin, readings_joined c hb hp, readings_joined c hb hp']
  refine List.rel_append (hr _) ?_
  cases c.feed.fault?
  case none => exact h
  case some => exact hr _

theorem akin_append (hR : ∀ f, R f f) (hp : Parted s t) (hp' : Parted s t')
    (h : ∀ k, ((start t).shift k).feed.Akin R ((start t').shift k).feed) :
    (start (s ++ t)).feed.Akin R (start (s ++ t')).feed := by
  have ⟨v, rest, hs, hv, hr⟩ := Text.exists_span (!isTerminator ·) s
  subst hs
  cases rest
  case nil =>
    rw [List.append_nil] at *
    have hb : ∀ x ∈ (start v).rest, isTerminator x = false := fun x hx => by simpa using hv x hx
    refine akin_joined hR hb hp hp' ?_
    rw [behind_eq_shift, behind_eq_shift]
    exact h _
  case cons x tl =>
    -- What stands behind a terminator is not read.
    have hx : isTerminator x := by simpa using hr x rfl
    have hm (more : List Char) : (start (v ++ x :: tl ++ more)).feed.readings =
        (start v).feed.readings := by
      rw [List.append_assoc, start_append, readings_append]
      rintro _ ⟨⟩
      exact hx
    exact .of_readings hR <| (hm t).trans (hm t').symm

theorem feed_gap {gap : List Char} (hg : Spaces gap) (t : List Char) (k : Nat) :
    ((start (gap ++ t)).shift k).feed = ((start t).shift (gap.length + k)).feed :=
  feed_spaces hg rfl (by simp [shift, start, seek, Nat.add_comm])

theorem feed_digits {digits t : List Char} (hd : ∀ x ∈ digits, x.isDigit)
    (hr : Numeral.Readable digits) (ht : Undigited t) (k : Nat) :
    ((start (digits ++ t)).shift k).feed = .lexeme (.integer (Numeral.value digits))
      ((start t).shift (digits.length + k)) ((start t).shift (digits.length + k)).feed := by
  have h : Reads ((start (digits ++ t)).shift k) (.lexeme (.integer (Numeral.value digits)))
      ((start t).shift (digits.length + k)) :=
    .lexeme [] digits _ nofun (.integer digits hd hr) (fun _ => ht) rfl
      (by simp [shift, start, seek, Nat.add_comm])
  rw [feed_eq, h.read_eq]

end Cursor

-- One change of layout: other spaces in one place, where no run of digits is split or joined by
-- that, or other zeros in front of one literal, which is within the digit limit with both.
inductive Relaid : List Char → List Char → Prop
  | spaces (s gap gap' t : List Char) (hg : Spaces gap) (hg' : Spaces gap')
      (hp : Parted s t ∨ (gap = [] ↔ gap' = [])) : Relaid (s ++ (gap ++ t)) (s ++ (gap' ++ t))
  | zeros (s digits t : List Char) (m n : Nat) (hs : ∀ x ∈ s.getLast?, x.isDigit = false)
      (hd : ∀ x ∈ digits, x.isDigit) (ht : Undigited t)
      (hr : Numeral.Readable (List.replicate m '0' ++ digits))
      (hr' : Numeral.Readable (List.replicate n '0' ++ digits)) :
      Relaid (s ++ (List.replicate m '0' ++ digits ++ t))
        (s ++ (List.replicate n '0' ++ digits ++ t))

theorem Parted.gap {s gap t : List Char} (hg : Spaces gap) (h : gap = [] → Parted s t) :
    Parted s (gap ++ t) :=
  fun hs => hg.undigited.append fun hn => h hn hs

theorem Numeral.value_zeros (m : Nat) (digits : List Char) :
    value (List.replicate m '0' ++ digits) = value digits := by
  induction m
  case zero    => rfl
  case succ hi =>
    rw [List.replicate_succ, List.cons_append, value, Nat.ofDigitChars_cons, ←hi]
    rfl

theorem Relaid.feed_akin {a b : List Char} (h : Relaid a b) :
    (Cursor.start a).feed.Akin Fault.Moved (Cursor.start b).feed := by
  cases h
  case spaces s gap gap' t hg hg' hp =>
    have ha (h : gap = [] → Parted s t) (h' : gap' = [] → Parted s t) :
        (Cursor.start (s ++ (gap ++ t))).feed.Akin Fault.Moved
          (Cursor.start (s ++ (gap' ++ t))).feed := by
      refine Cursor.akin_append .refl (.gap hg h) (.gap hg' h') fun k => ?_
      rw [Cursor.feed_gap hg, Cursor.feed_gap hg']
      exact Cursor.feed_akin (.shift _ _) _
    cases hp
    case inl hp => exact ha (fun _ => hp) (fun _ => hp)
    case inr hn =>
      by_cases he : gap = []
      case pos => exact he ▸ hn.mp he ▸ .of_readings .refl rfl
      case neg => exact ha (absurd · he) fun he' => absurd (hn.mpr he') he
  case zeros s digits t m n hs hd ht hr hr' =>
    have hp {t : List Char} : Parted s t := fun ⟨x, hx, hd⟩ => absurd hd (by simp [hs x hx])
    have hz (m : Nat) : ∀ x ∈ List.replicate m '0' ++ digits, x.isDigit :=
      List.forall_mem_append.mpr ⟨fun x hx => List.eq_of_mem_replicate hx ▸ rfl, hd⟩
    refine Cursor.akin_append .refl hp hp fun k => ?_
    rw [Cursor.feed_digits (hz m) hr ht, Cursor.feed_digits (hz n) hr' ht, Numeral.value_zeros,
      Numeral.value_zeros]
    exact .cons .lexeme <| Cursor.feed_akin (.shift _ _) _

theorem Relaid.akin {a b : List Char} (h : Relation.ReflTransGen Relaid a b) :
    (Cursor.start a).feed.Akin Fault.Moved (Cursor.start b).feed := by
  induction h
  case refl      => exact .of_readings .refl rfl
  case tail h hi => exact hi.trans Fault.Moved.trans h.feed_akin

-- Lines of the same tokens log the same, and have the same value or the same error, but for the
-- message of a fault. So spaces and leading zeros make no difference but to the columns of faults,
-- and a line without faults is worth what its shortest spelling is.
theorem evaluate_relaid (sw : Switches) :
    (∀ a b, (Feed.ofText a).tokens = (Feed.ofText b).tokens →
      (evaluate sw a).Akin (fun _ _ => True) (evaluate sw b)) ∧
    (∀ f, ∃ m, (Error.lexical f).report? = some ⟨.lexical, some .malformed, none, m⟩) ∧
    (∀ a b : String, Relation.ReflTransGen Relaid a.toList b.toList →
      (Feed.ofText a).tokens = (Feed.ofText b).tokens ∧
        (evaluate sw a).Akin Fault.Moved (evaluate sw b)) ∧
    ∀ line, (Feed.ofText line).fault? = none →
      evaluate sw (String.ofList (canonical (Feed.ofText line).lexemes)) = evaluate sw line := by
  refine ⟨fun a b h => evaluate_akin sw (.of_tokens h), fun f => ⟨_, rfl⟩,
    fun a b h => ⟨(Relaid.akin h).tokens_eq, evaluate_akin sw (Relaid.akin h)⟩,
    fun line hf => evaluate_congr sw ?_⟩
  have hl := layout_canonical (Cursor.feed_limited (.start line.toList))
  rw [Feed.ofText, String.toList_ofList, Feed.ofText, hl.readings, Feed.readings_eq, ←Feed.ofText,
    hf]
  rfl

example :
    (evaluate .off "007 $").outcome = .error (.lexical (.character '$' 5)) ∧
      (evaluate .off "7  $").outcome = .error (.lexical (.character '$' 4)) := by
  decide +kernel

end Abacus
