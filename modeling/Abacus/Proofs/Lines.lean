import Abacus.Proofs.Layout
import Abacus.Text.Lines

namespace Abacus.Text

def ofLines (lines : List String) : String :=
  String.join (lines.map (· ++ "\n"))

namespace Lines

inductive Typed : List Char → List (List Char) → Prop
  | nil : Typed [] []
  | last (hl : line ≠ []) (hn : '\n' ∉ line) : Typed line [line]
  | cons (hn : '\n' ∉ line) (h : Typed cs lines) : Typed (line ++ '\n' :: cs) (line :: lines)

-- The three ways in which a line of a file is ended. A `'\r'` is not parted from a `'\n'`.
inductive Break : List Char → List Char → Prop
  | newline : Break ['\n'] cs
  | both : Break ['\r', '\n'] cs
  | carriage (hr : cs.head? ≠ some '\n') : Break ['\r'] cs

def Unbroken (line : List Char) : Prop :=
  ∀ x ∈ line, Cursor.isTerminator x = false

inductive Filed : List Char → List (List Char) → Prop
  | nil : Filed [] []
  | last (hl : line ≠ []) (hu : Unbroken line) : Filed line [line]
  | cons (hu : Unbroken line) (hb : Break ending cs) (h : Filed cs lines) :
      Filed (line ++ (ending ++ cs)) ((line ++ ['\n']) :: lines)

def cut (ending : List Char) : List Char → List (List Char)
  | [] => []
  | c :: cs =>
    if c = '\n' then ending :: cut ending cs
    else match cut ending cs with
      | [] => [[c]]
      | line :: lines => (c :: line) :: lines

theorem cut_nil : (cs : List Char) → cut [] cs = split cs
  | []      => rfl
  | c :: cs => by rw [cut, cut_nil cs]; rfl

variable {e line cs : List Char} {lines : List (List Char)}

theorem cut_unended (hl : line ≠ []) (hn : '\n' ∉ line) : cut e line = [line] := by
  induction line
  case nil => exact absurd rfl hl
  case cons x tl hi =>
    simp only [List.mem_cons, not_or] at hn
    rw [cut, if_neg (Ne.symm hn.left)]
    by_cases ht : tl = []
    case pos => rw [ht, cut]
    case neg => rw [hi ht hn.right]

theorem cut_append (hn : '\n' ∉ line) : cut e (line ++ '\n' :: cs) = (line ++ e) :: cut e cs := by
  induction line
  case nil => rw [List.nil_append, cut, if_pos rfl, List.nil_append]
  case cons x tl hi =>
    simp only [List.mem_cons, not_or] at hn
    rw [List.cons_append, cut, if_neg (Ne.symm hn.left), hi hn.right, List.cons_append]

namespace Typed

theorem split_eq (h : Typed cs lines) : split cs = lines := by
  induction h
  case nil          => rfl
  case last hl hn   => rw [←cut_nil, cut_unended hl hn]
  case cons hn _ hi => rw [←cut_nil, cut_append hn, cut_nil, hi, List.append_nil]

theorem exists_typed (cs : List Char) : ∃ lines, Typed cs lines := by
  have ⟨line, rest, ht, hs, hr⟩ := exists_span (· ≠ '\n') cs
  have hn : '\n' ∉ line := fun h => by simpa using hs _ h
  cases rest
  case nil =>
    by_cases hl : line = []
    · exact ⟨[], by simpa [ht, hl] using .nil⟩
    · exact ⟨[line], by simpa [ht] using .last hl hn⟩
  case cons x tl =>
    have hx : x = '\n' := by simpa using hr
    have ⟨lines, hl⟩ := exists_typed tl
    exact ⟨line :: lines, by simpa [ht, hx] using .cons hn hl⟩
termination_by cs.length
decreasing_by simp [ht]; omega

end Typed

theorem typed_iff : Typed cs lines ↔ split cs = lines where
  mp h  := h.split_eq
  mpr h := by
    have ⟨_, hl⟩ := Typed.exists_typed cs
    exact h ▸ hl.split_eq ▸ hl

theorem Unbroken.newline_notMem (h : Unbroken line) : '\n' ∉ line := fun hm =>
  by simpa [Cursor.isTerminator] using h _ hm

theorem unify_cons {c : Char} (h : c = '\r' → cs.head? ≠ some '\n') :
    unify (c :: cs) = (if c = '\r' then '\n' else c) :: unify cs := by
  rw [unify]
  intro tl hc ht
  exact h hc (ht ▸ rfl)

theorem Unbroken.unify_append (h : Unbroken line) : unify (line ++ cs) = line ++ unify cs := by
  induction line
  case nil => rfl
  case cons x tl hi =>
    have hx : x ≠ '\r' := fun hr => by simpa [hr, Cursor.isTerminator] using h x (by simp)
    rw [List.cons_append, unify_cons (absurd · hx), if_neg hx, hi fun y hy => h y (by simp [hy])]
    rfl

namespace Break

theorem ne_nil (h : Break e cs) : e ≠ [] := by
  cases h <;> simp

theorem unify_append : Break e cs → unify (e ++ cs) = '\n' :: unify cs
  | newline   => unify_cons (absurd · (by decide))
  | both      => rfl
  | carriage h => unify_cons fun _ => h

theorem exists_break {c : Char} (h : Cursor.isTerminator c) (cs : List Char) :
    ∃ e rest, Break e rest ∧ c :: cs = e ++ rest := by
  simp only [Cursor.isTerminator, Bool.or_eq_true, decide_eq_true_eq] at h
  cases h
  case inl hc => exact ⟨['\n'], cs, .newline, by rw [hc]; rfl⟩
  case inr hc =>
    by_cases hr : cs.head? = some '\n'
    · obtain ⟨tl, ht⟩ := List.head?_eq_some_iff.mp hr
      exact ⟨['\r', '\n'], tl, .both, by rw [hc, ht]; rfl⟩
    · exact ⟨['\r'], cs, .carriage hr, by rw [hc]; rfl⟩

theorem append {more : List Char} (h : Break e cs) (hc : cs ≠ []) : Break e (cs ++ more) := by
  cases h
  case newline   => exact .newline
  case both      => exact .both
  case carriage h => exact .carriage <| by rwa [List.head?_append_of_ne_nil _ hc]

theorem extend (h : Break e []) (more : List Char) :
    ∃ e' rest, Break e' rest ∧ e ++ more = e' ++ rest := by
  cases h
  case newline  => exact ⟨_, more, .newline, rfl⟩
  case both     => exact ⟨_, more, .both, rfl⟩
  case carriage => exact exists_break rfl more

end Break

namespace Filed

theorem cut_eq (h : Filed cs lines) : cut ['\n'] (unify cs) = lines := by
  induction h
  case nil => rfl
  case last line hl hu =>
    have : unify (line ++ []) = line ++ unify [] := hu.unify_append
    rw [List.append_nil] at this
    rw [this, unify, List.append_nil, cut_unended hl hu.newline_notMem]
  case cons hu hb _ hi =>
    rw [hu.unify_append, hb.unify_append, cut_append hu.newline_notMem, hi]

theorem exists_filed (cs : List Char) : ∃ lines, Filed cs lines := by
  have ⟨line, rest, ht, hs, hr⟩ := exists_span (!Cursor.isTerminator ·) cs
  have hu : Unbroken line := by simpa [Unbroken] using hs
  cases rest
  case nil =>
    by_cases hl : line = []
    · exact ⟨[], by simpa [ht, hl] using .nil⟩
    · exact ⟨[line], by simpa [ht] using .last hl hu⟩
  case cons x tl =>
    have hx : Cursor.isTerminator x := by simpa using hr
    have ⟨e, rest, hb, he⟩ := Break.exists_break hx tl
    rw [he] at ht
    have : rest.length < cs.length := by
      have := List.length_pos_iff.mpr hb.ne_nil
      simp [ht]
      omega
    have ⟨_, hl⟩ := exists_filed rest
    exact ⟨_, ht ▸ hl.cons hu hb⟩
termination_by cs.length

theorem append (h : Filed cs lines) (he : ∀ x ∈ cs.getLast?, Cursor.isTerminator x)
    (more : List Char) : ∃ rest, Filed (cs ++ more) (lines ++ rest) := by
  induction h
  case nil => exact exists_filed more
  case last hl hu =>
    have := hu _ (List.getLast_mem hl)
    simp [he _ (List.getLast?_eq_some_getLast hl)] at this
  case cons line e cs lines hu hb h hi =>
    by_cases hc : cs = []
    case pos =>
      subst hc
      have ⟨e', rest, hb, hm⟩ := hb.extend more
      have ⟨_, hl⟩ := exists_filed rest
      exact ⟨_, by simpa [hm, ←h.cut_eq, unify, cut] using hl.cons hu hb⟩
    case neg =>
      have ⟨rest, hl⟩ := hi fun x hx => he x <| by simp [Option.mem_def.mp hx]
      exact ⟨rest, by simpa using hl.cons hu (hb.append hc)⟩

end Filed

-- No `'\r'` is alone: a `'\n'` stands right behind each.
def Paired : List Char → Prop
  | []      => True
  | c :: cs => (c = '\r' → cs.head? = some '\n') ∧ Paired cs

instance Paired.decidable : (cs : List Char) → Decidable (Paired cs)
  | []      => isTrue trivial
  | c :: cs =>
    have := decidable cs
    inferInstanceAs (Decidable ((c = '\r' → cs.head? = some '\n') ∧ Paired cs))

theorem Paired.of_append {s : List Char} (h : Paired (s ++ cs)) : Paired cs := by
  induction s
  case nil         => exact h
  case cons x s hi => exact hi h.right

theorem Unbroken.visible_eq (h : Unbroken line) : visible line = line :=
  List.takeWhile_eq_self_iff.mpr <| by simpa [Unbroken] using h

theorem Unbroken.visible_append {more : List Char} (h : Unbroken line) (hm : Ended more) :
    visible (line ++ more) = line := by
  rw [Abacus.visible_append h, visible_eq_nil hm, List.append_nil]

theorem Filed.exists_typed (h : Filed cs lines) (hp : Paired cs) :
    ∃ ls, Typed cs ls ∧ List.Forall₂ (fun k l => visible k = visible l) lines ls := by
  induction h
  case nil        => exact ⟨[], .nil, .nil⟩
  case last hl hu => exact ⟨_, .last hl hu.newline_notMem, .cons rfl .nil⟩
  case cons line e cs lines hu hb _ hi =>
    have ⟨ls, ht, hv⟩ := hi hp.of_append.of_append
    have hk : visible (line ++ ['\n']) = line :=
      hu.visible_append <| by simp [Ended, Cursor.isTerminator]
    cases hb
    case newline =>
      refine ⟨line :: ls, .cons hu.newline_notMem ht, .cons ?_ hv⟩
      exact hk.trans hu.visible_eq.symm
    case both =>
      have hn : '\n' ∉ line ++ ['\r'] := by simpa using hu.newline_notMem
      refine ⟨(line ++ ['\r']) :: ls, by simpa using ht.cons hn, .cons ?_ hv⟩
      exact hk.trans (hu.visible_append <| by simp [Ended, Cursor.isTerminator]).symm
    case carriage hr => exact absurd (hp.of_append.left rfl) hr

theorem filed_iff : Filed cs lines ↔ cut ['\n'] (unify cs) = lines where
  mp h  := h.cut_eq
  mpr h := by
    have ⟨_, hl⟩ := Filed.exists_filed cs
    exact h ▸ hl.cut_eq ▸ hl

theorem cut_newline (cs : List Char) :
    List.Forall₂ (fun k l => k = l ∨ k = l ++ ['\n']) (cut ['\n'] cs) (split cs) := by
  induction cs
  case nil => exact .nil
  case cons c cs hi =>
    by_cases hc : c = '\n'
    case pos =>
      rw [cut, split, if_pos hc, if_pos hc]
      exact .cons (.inr rfl) hi
    case neg =>
      rw [cut, split, if_neg hc, if_neg hc]
      generalize cut ['\n'] cs = ks, split cs = ls at hi
      cases hi
      case nil => exact .cons (.inl rfl) .nil
      case cons h hi =>
        refine .cons ?_ hi
        cases h
        case inl h => exact .inl <| by rw [h]
        case inr h => exact .inr <| by rw [h]; rfl

end Lines

def keptLines (content : String) : List String :=
  (Lines.cut ['\n'] (Lines.unify content.toList)).map String.ofList

theorem map_ofList_eq {cs : List (List Char)} {lines : List String} :
    cs.map String.ofList = lines ↔ cs = lines.map String.toList := by
  constructor <;> intro h
  case mp  => simp [←h, Function.comp_def]
  case mpr => simp [h, Function.comp_def]

theorem typedLines_eq {input : String} {lines : List String} :
    typedLines input = lines ↔ Lines.Typed input.toList (lines.map String.toList) :=
  map_ofList_eq.trans Lines.typed_iff.symm

theorem keptLines_eq {content : String} {lines : List String} :
    keptLines content = lines ↔ Lines.Filed content.toList (lines.map String.toList) :=
  map_ofList_eq.trans Lines.filed_iff.symm

theorem keptLines_append {content : String}
    (h : ∀ x ∈ content.toList.getLast?, Cursor.isTerminator x) (more : String) :
    ∃ rest, keptLines (content ++ more) = keptLines content ++ rest := by
  have ⟨rest, hr⟩ := keptLines_eq.mp rfl |>.append h more.toList
  refine ⟨rest.map String.ofList, keptLines_eq.mpr ?_⟩
  simpa [Function.comp_def] using hr

theorem typedLines_ofLines {lines : List String} (h : ∀ line ∈ lines, '\n' ∉ line.toList) :
    typedLines (ofLines lines) = lines := by
  rw [typedLines_eq]
  induction lines
  case nil => exact .nil
  case cons line lines hi =>
    have := hi fun l hl => h l (by simp [hl])
    simpa [ofLines] using this.cons (h line (by simp))

end Abacus.Text
