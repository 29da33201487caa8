import Abacus.Call
import Abacus.Proofs.Flags

namespace Abacus.CommandLine

inductive Wish
  | tokens
  | trace
  | prompt (text : String)
  | file (path : String)
  deriving DecidableEq, Repr

namespace Wish

def prompt? : Wish → Option String
  | prompt text              => some text
  | tokens | trace | file _ => none

def file? : Wish → Option String
  | file path                  => some path
  | tokens | trace | prompt _ => none

end Wish

def Plain (s : String) : Prop :=
  s.toList.head? ≠ some '-'

instance (s : String) : Decidable (Plain s) :=
  inferInstanceAs (Decidable (_ ≠ _))

-- The groups of arguments that ask for one thing. A flag can be shortened, as long as it is no
-- beginning of another one.
inductive Group : Wish → List String → Prop
  | tokens (hs : Flag.tokens.isSpelling s) : Group .tokens [s]
  | trace (hs : Flag.trace.isSpelling s) : Group .trace [s]
  | prompt (hs : Flag.prompt.isSpelling s) (hx : Plain x) : Group (.prompt x) [s, x]
  | attached (hs : Flag.prompt.isSpelling s) (hx : x ≠ "--") : Group (.prompt x) [s ++ "=" ++ x]
  | file (hx : Plain x) : Group (.file x) [x]

-- The arguments that ask for one thing after the other. A file behind a separator comes last, and
-- can have any name.
inductive Asking : List Wish → List String → Prop
  | nil : Asking [] []
  | cons (hg : Group w group) (h : Asking ws rest) : Asking (w :: ws) (group ++ rest)
  | separated : Asking [.file x] ["--", x]

inductive Asked : List Wish → List Argument → Prop
  | nil : Asked [] []
  | tokens (h : Asked ws as) : Asked (.tokens :: ws) (.flag .tokens none :: as)
  | trace (h : Asked ws as) : Asked (.trace :: ws) (.flag .trace none :: as)
  | prompt (h : Asked ws as) : Asked (.prompt x :: ws) (.flag .prompt none :: .word x :: as)
  | attached (hx : x ≠ "--") (h : Asked ws as) :
      Asked (.prompt x :: ws) (.flag .prompt (some x) :: as)
  | file (h : Asked ws as) : Asked (.file x :: ws) (.word x :: as)
  | separated : Asked [.file x] [.separator, .word x]

variable {f : Flag} {s x : String} {ws : List Wish}

theorem Flag.isSpelling_ne_separator (h : f.isSpelling s) : s ≠ "--" := by
  intro hs
  subst hs
  cases f <;> exact absurd h (by decide)

theorem cut_append {cs value : List Char} (h : '=' ∉ cs) :
    cut (cs ++ '=' :: value) = (cs, some (String.ofList value)) := by
  have hn : ∀ y ∈ cs, decide (y ≠ '=') := fun y hy => decide_eq_true <| ne_of_mem_of_not_mem hy h
  have hd : (cs ++ '=' :: value).dropWhile (· ≠ '=') = '=' :: value := by
    rw [List.dropWhile_append_of_pos hn]
    rfl
  have ht : (cs ++ '=' :: value).takeWhile (· ≠ '=') = cs := by
    rw [List.takeWhile_append_of_pos hn, List.takeWhile_cons_of_neg (by decide), List.append_nil]
  simp only [cut, hd, ht]

namespace Argument

theorem ofString_spelling (h : f.isSpelling s) : ofString s = .ok (flag f none) := by
  have ⟨tl, hs⟩ := Flag.isSpelling_hyphens h
  unfold ofString
  simp only [hs]
  simp only [←hs, cut_eq (Flag.isSpelling_equals h), Flag.matching_eq_singleton.mpr h]

theorem ofString_attached (h : f.isSpelling s) (x : String) :
    ofString (s ++ "=" ++ x) = .ok (flag f (some x)) := by
  have ⟨tl, hs⟩ := Flag.isSpelling_hyphens h
  have hm := Flag.matching_eq_singleton.mpr h
  have hc : cut (s.toList ++ '=' :: x.toList) = (s.toList, some (String.ofList x.toList)) :=
    cut_append (Flag.isSpelling_equals h)
  have hx : (s ++ "=" ++ x).toList = s.toList ++ '=' :: x.toList := by simp
  unfold ofString
  rw [hx]
  rw [hs] at hc hm ⊢
  simp only [List.cons_append] at hc ⊢
  simp only [hc, hm, String.ofList_toList]

theorem ofString_plain (h : Plain s) : ofString s = .ok (word s) := by
  unfold ofString
  split <;> simp_all [Plain]

variable {a : Argument} {as : List Argument} {ss : List String} (hr : ofStrings ss = .ok as)

include hr

theorem ofStrings_cons (hs : s ≠ "--") (ha : ofString s = .ok a) :
    ofStrings (s :: ss) = .ok (a :: as) := by
  rw [ofStrings, if_neg hs, ha, hr]
  rfl

theorem ofStrings_spelling (h : f.isSpelling s) : ofStrings (s :: ss) = .ok (flag f none :: as) :=
  ofStrings_cons hr (Flag.isSpelling_ne_separator h) (ofString_spelling h)

theorem ofStrings_attached (h : f.isSpelling s) (x : String) :
    ofStrings ((s ++ "=" ++ x) :: ss) = .ok (flag f (some x) :: as) := by
  refine ofStrings_cons hr (fun hx => ?_) (ofString_attached h x)
  have he : '=' ∈ "--".toList := hx ▸ by simp
  exact absurd he (by decide)

theorem ofStrings_plain (h : Plain s) : ofStrings (s :: ss) = .ok (word s :: as) :=
  ofStrings_cons hr (fun hs => h <| hs ▸ rfl) (ofString_plain h)

end Argument

theorem Group.ofStrings {w : Wish} {group rest : List String} {as : List Argument}
    (hg : Group w group) (hr : Argument.ofStrings rest = .ok as) (ha : Asked ws as) :
    ∃ bs, Argument.ofStrings (group ++ rest) = .ok bs ∧ Asked (w :: ws) bs := by
  cases hg
  case tokens hs         => exact ⟨_, Argument.ofStrings_spelling hr hs, .tokens ha⟩
  case trace hs          => exact ⟨_, Argument.ofStrings_spelling hr hs, .trace ha⟩
  case file hx           => exact ⟨_, Argument.ofStrings_plain hr hx, .file ha⟩
  case attached x hs hx  => exact ⟨_, Argument.ofStrings_attached hr hs x, .attached hx ha⟩
  case prompt hs hx      =>
    exact ⟨_, Argument.ofStrings_spelling (Argument.ofStrings_plain hr hx) hs, .prompt ha⟩

theorem Asking.ofStrings {arguments : List String} (h : Asking ws arguments) :
    ∃ as, Argument.ofStrings arguments = .ok as ∧ Asked ws as := by
  induction h
  case nil          => exact ⟨[], rfl, .nil⟩
  case separated    => exact ⟨_, rfl, .separated⟩
  case cons hg _ hi =>
    have ⟨_, hr, ha⟩ := hi
    exact hg.ofStrings hr ha

def Settings.grant (s : Settings) : Wish → Settings
  | .tokens   => s.logTokens
  | .trace    => s.logSteps
  | .prompt x => { s with prompt := x }
  | .file x   => { s with file := some x }

theorem Request.ofArguments_word {s : Settings} {extra : List String} {as : List Argument}
    (hs : s.file = none) (ha : as.head? ≠ some .separator) (w : String) :
    ofArguments s extra (.word w :: as) = ofArguments { s with file := some w } extra as := by
  rw [ofArguments]
  · exact hs
  · exact fun rest hr => ha <| hr ▸ rfl

theorem Asked.ofArguments {as : List Argument} {s : Settings} (h : Asked ws as)
    (hf : s.file.toList.length + (ws.filterMap Wish.file?).length ≤ 1) :
    Request.ofArguments s [] as = .ok (.run (ws.foldl Settings.grant s)) := by
  induction h generalizing s
  case nil => rfl
  case tokens hi =>
    rw [Request.ofArguments]
    exact hi hf
  case trace hi =>
    rw [Request.ofArguments]
    exact hi hf
  case prompt hi =>
    rw [Request.ofArguments]
    exact hi hf
  case attached hx _ hi =>
    rw [Request.ofArguments, attachedPrompt, if_neg hx]
    exact hi hf
  case file ws as x h hi =>
    simp only [List.filterMap_cons, Wish.file?, List.length_cons] at hf
    have hs : s.file = none := by simpa using (by omega : s.file.toList.length = 0)
    have hn : (ws.filterMap Wish.file?).length = 0 := by omega
    have ha : as.head? ≠ some .separator := by
      intro ha
      cases h <;> cases ha
      simp [Wish.file?] at hf
    rw [Request.ofArguments_word hs ha]
    refine hi ?_
    rw [hn]
    exact Nat.le_refl 1
  case separated x =>
    have hs : s.file = none := by simpa [Wish.file?] using hf
    simp [Request.ofArguments, hs, Settings.grant]

theorem Settings.foldl_grant (s : Settings) (ws : List Wish) :
    ws.foldl grant s =
      ⟨⟨s.switches.tokens || ws.contains .tokens, s.switches.steps || ws.contains .trace⟩,
        (ws.filterMap Wish.prompt?).getLast?.getD s.prompt,
        (ws.filterMap Wish.file?).getLast?.or s.file⟩ := by
  induction ws generalizing s
  case nil => simp
  case cons w ws hi =>
    rw [List.foldl_cons, hi]
    cases w <;>
      simp [grant, logTokens, logSteps, Wish.prompt?, Wish.file?, List.getLast?_cons]

theorem parse_asking {arguments : List String} {file : Option String} (h : Asking ws arguments)
    (hf : ws.filterMap Wish.file? = file.toList) :
    parse arguments = .ok (.run ⟨⟨ws.contains .tokens, ws.contains .trace⟩,
      (ws.filterMap Wish.prompt?).getLast?.getD "calc> ", file⟩) := by
  have ⟨as, hr, ha⟩ := h.ofStrings
  have hl : Settings.default.file.toList.length + (ws.filterMap Wish.file?).length ≤ 1 := by
    cases file <;> simp [hf, Settings.default]
  rw [parse, hr]
  simp only [ha.ofArguments hl, Settings.foldl_grant, hf]
  cases file <;> simp [Settings.default, Switches.off]

end Abacus.CommandLine

namespace Abacus.Call

open CommandLine

-- What is done depends neither on the order in which the arguments ask for it nor on their spelling.
-- A switch is on if it is asked for, and of the prompts the last one counts, unless there is a file.
theorem run_asking {ws : List Wish} {arguments : List String} {file : Option String}
    (h : Asking ws arguments) (hf : ws.filterMap Wish.file? = file.toList) (files : FileTree)
    (sw : Switches) (input : String) :
    let asked : Switches := ⟨ws.contains .tokens, ws.contains .trace⟩
    let prompt := (ws.filterMap Wish.prompt?).getLast?.getD "calc> "
    (main arguments input).run files sw =
      (file.elim (session prompt input) batch).run files asked := by
  intro asked prompt
  exact run_main files sw input (parse_asking h hf)

theorem run_asking_short :
    Asking [.prompt "--tokens", .trace, .prompt "> "] ["--prompt=--tokens", "--tr", "--p", "> "] ∧
    Asking [.tokens, .file "-h"] ["--tok", "--", "-h"] ∧
    (main ["--prompt=--tokens", "--tr", "--p", "> "] "2*3\n").run ⟨[]⟩ .off =
      (⟨"> 2 * 3 = 6\n6\n> ", "", .returned none⟩, ⟨false, true⟩) ∧
    (main ["--tok", "--", "-h"] "2*3\n").run ⟨[]⟩ .off =
      (⟨"", "", .failed (.file (.missing "-h"))⟩, ⟨true, false⟩) := by
  have hp : Asking [.prompt "--tokens", .trace, .prompt "> "]
      ["--prompt=--tokens", "--tr", "--p", "> "] :=
    .cons (.attached (s := "--prompt") (by decide) (by decide)) <| .cons (.trace (by decide)) <|
      .cons (.prompt (by decide) (by decide)) .nil
  have hf : Asking [.tokens, .file "-h"] ["--tok", "--", "-h"] :=
    .cons (.tokens (by decide)) .separated
  have he : [Wish.prompt "--tokens", .trace, .prompt "> "].filterMap Wish.file? = none.toList := rfl
  have hh : [Wish.tokens, .file "-h"].filterMap Wish.file? = (some "-h").toList := rfl
  refine ⟨hp, hf, ?_, ?_⟩
  case refine_1 => exact run_asking hp he ⟨[]⟩ .off "2*3\n" |>.trans (by decide +kernel)
  case refine_2 => exact run_asking hf hh ⟨[]⟩ .off "2*3\n" |>.trans (by decide +kernel)

end Abacus.Call
