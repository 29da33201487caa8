import Abacus.CommandLine
import Mathlib.Data.List.Infix
import Mathlib.Data.List.TakeWhile

namespace Abacus.CommandLine

namespace Flag

-- The shortest beginning of the long form that no other flag has.
def shortest : Flag → String
  | help   => "--h"
  | prompt => "--p"
  | tokens => "--to"
  | trace  => "--tr"

def isSpelling (f : Flag) (s : String) : Bool :=
  f.shortest.toList.isPrefixOf s.toList && s.toList.isPrefixOf f.long.toList

end Flag

def given (f : Flag) (arguments : List String) : Bool :=
  (arguments.takeWhile (· ≠ "--")).any f.isSpelling

variable {f : Flag} {s : String}

theorem given_cons {ss : List String} (h : s ≠ "--") :
    given f (s :: ss) = (f.isSpelling s || given f ss) := by
  simp [given, h]

namespace Flag

theorem mem_matching {name : List Char} : f ∈ matching name ↔ name <+: f.long.toList := by
  have hf : f ∈ all := by cases f <;> decide
  simp [matching, hf]

theorem matching_eq_singleton : matching s.toList = [f] ↔ f.isSpelling s := by
  have key : ∀ name ∈ f.long.toList.inits,
      matching name = [f] ↔ f.shortest.toList.isPrefixOf name ∧ name.isPrefixOf f.long.toList := by
    cases f <;> decide
  by_cases h : s.toList <+: f.long.toList
  case pos => simpa [isSpelling] using key _ <| List.mem_inits _ _ |>.mpr h
  case neg =>
    have hm : matching s.toList ≠ [f] := by
      intro hm
      exact h <| mem_matching.mp <| hm ▸ List.mem_singleton_self f
    simp [isSpelling, hm, h]

theorem isSpelling_hyphens (h : f.isSpelling s) : ∃ tl, s.toList = '-' :: '-' :: tl := by
  have hs : ['-', '-'] <+: f.shortest.toList := by cases f <;> decide
  simp only [isSpelling, Bool.and_eq_true, List.isPrefixOf_iff_prefix] at h
  have ⟨tl, ht⟩ := hs.trans h.left
  exact ⟨tl, ht.symm⟩

theorem isSpelling_equals (h : f.isSpelling s) : '=' ∉ s.toList := by
  have hl : '=' ∉ f.long.toList := by cases f <;> decide
  simp only [isSpelling, Bool.and_eq_true, List.isPrefixOf_iff_prefix] at h
  exact fun he => hl <| h.right.subset he

end Flag

theorem cut_eq {cs : List Char} (h : '=' ∉ cs) : cut cs = (cs, none) := by
  have hd : cs.dropWhile (· ≠ '=') = [] := by
    rw [List.dropWhile_eq_nil_iff]
    exact fun x hx => by simpa using ne_of_mem_of_not_mem hx h
  simp only [cut, hd]

theorem cut_snd_ne_none {cs : List Char} (h : '=' ∈ cs) : (cut cs).2 ≠ none := by
  have hd : cs.dropWhile (· ≠ '=') ≠ [] := by
    rw [Ne, List.dropWhile_eq_nil_iff]
    exact fun hn => by simpa using hn '=' h
  unfold cut
  split
  case h_1 hc => exact absurd hc hd
  case h_2    => simp

namespace Argument

theorem ofUnmatched_ne_flag {tl : List Char} {v : Option String} : ofUnmatched s tl ≠ flag f v := by
  rw [ofUnmatched]
  split <;> simp

theorem ofString_eq_flag {a : Argument} (hf : f ≠ .help) (h : ofString s = .ok a) :
    a = flag f none ↔ f.isSpelling s := by
  unfold ofString at h
  split at h
  case h_1 tl hs =>
    simp only [←hs] at h
    by_cases he : '=' ∈ s.toList
    case pos =>
      have hn := cut_snd_ne_none he
      have hs : ¬f.isSpelling s := fun hs => Flag.isSpelling_equals hs he
      generalize cut s.toList = c at h hn
      split at h <;> cases h
      case h_1 => simp [hs, ofUnmatched_ne_flag]
      case h_2 => simp [hs, hn]
    case neg =>
      rw [cut_eq he] at h
      rw [←Flag.matching_eq_singleton]
      split at h <;> cases h
      case h_1 hm   => simp [hm, ofUnmatched_ne_flag]
      case h_2 g hm => simp [hm]
  all_goals
    have hs : ¬f.isSpelling s := by
      intro hf
      have ⟨_, _⟩ := Flag.isSpelling_hyphens hf
      grind
    cases h
    simp [hs, ofUnmatched_ne_flag, Ne.symm hf]

theorem contains_flag {ss : List String} {as : List Argument} (hf : f ≠ .help)
    (h : ofStrings ss = .ok as) : as.contains (flag f none) = given f ss := by
  induction ss generalizing as
  case nil => cases h; rfl
  case cons s ss hi =>
    rw [ofStrings] at h
    split at h
    case isTrue hs =>
      cases h
      simp [given, hs]
    case isFalse hn =>
      split at h
      case h_1 => cases h
      case h_2 a ha =>
        cases ho : ofStrings ss <;> rw [ho] at h <;> cases h
        have hs : (flag f none == a) = f.isSpelling s := by
          rw [Bool.eq_iff_iff, beq_iff_eq, eq_comm, ofString_eq_flag hf ha]
        rw [List.contains_cons, hi ho, hs, given_cons hn]

end Argument

theorem Request.ofArguments_switches {s t : Settings} {extra : List String} {as : List Argument}
    (h : ofArguments s extra as = .ok (.run t)) :
    t.switches.tokens = (s.switches.tokens || as.contains (.flag .tokens none)) ∧
      t.switches.steps = (s.switches.steps || as.contains (.flag .trace none)) := by
  fun_induction ofArguments s extra as <;> simp_all [Settings.logTokens, Settings.logSteps]

theorem parse_switches {arguments : List String} {s : Settings}
    (h : parse arguments = .ok (.run s)) :
    s.switches = ⟨given .tokens arguments, given .trace arguments⟩ := by
  rw [parse] at h
  split at h
  case h_1 => cases h
  case h_2 as ho =>
    have ⟨ht, hs⟩ := Request.ofArguments_switches h
    rw [Argument.contains_flag (by decide) ho] at ht hs
    exact Switches.mk.injEq .. |>.mpr ⟨ht, hs⟩

end Abacus.CommandLine
