import Abacus.Log

namespace Abacus.Text

def Printable (s : String) : Prop :=
  ∀ x ∈ s.toList, isPrintable x

variable {c x : Char}

theorem isPrintable_ascii (h₁ : 32 ≤ c.toNat) (h₂ : c.toNat < 127) : isPrintable c := by
  have h : ∀ r ∈ unprintable, r.2 < 32 ∨ 127 ≤ r.1 := by decide +kernel
  simp only [isPrintable, Bool.not_eq_true', List.any_eq_false, Bool.and_eq_true, decide_eq_true_eq]
  intro r hr
  have := h r hr
  omega

theorem isPrintable_of_isDigit (h : c.isDigit) : isPrintable c :=
  have ⟨h₁, h₂⟩ := Char.isDigit_iff_toNat.mp h
  isPrintable_ascii (Nat.le_trans (by decide) h₁) (Nat.lt_of_le_of_lt h₂ (by decide))

theorem isPrintable_of_mem_hex {width n : Nat} (h : x ∈ Quoted.hex width n) : isPrintable x := by
  induction width generalizing n
  case zero => cases h
  case succ hi =>
    have hd : ∀ k < 16, 32 ≤ (Nat.digitChar k).toNat ∧ (Nat.digitChar k).toNat < 127 := by decide
    rw [Quoted.hex, List.mem_append, List.mem_singleton] at h
    cases h
    case inl h => exact hi h
    case inr h =>
      have := hd _ (Nat.mod_lt n (by decide))
      exact h ▸ isPrintable_ascii this.left this.right

theorem isPrintable_of_mem_codePoint (h : x ∈ Quoted.codePoint c) : isPrintable x := by
  simp only [Quoted.codePoint] at h
  split at h <;> try split at h
  all_goals
    simp only [List.mem_cons] at h
    obtain h | h | h := h
    case inr.inr => exact isPrintable_of_mem_hex h
    all_goals exact h ▸ isPrintable_ascii (by decide) (by decide)

theorem isPrintable_of_mem_escape {q : Char} (hq : isPrintable q) (h : x ∈ Quoted.escape q c) :
    isPrintable x := by
  have hs : isPrintable '\\' := isPrintable_ascii (by decide) (by decide)
  rw [Quoted.escape] at h
  split at h
  case isTrue hc =>
    obtain h | h : x = '\\' ∨ x = c := by simpa using h
    case inl => exact h ▸ hs
    case inr => exact hc.elim (fun hc => h ▸ hc ▸ hq) (fun hc => h ▸ hc ▸ hs)
  case isFalse =>
    split at h <;> try split at h <;> try split at h <;> try split at h
    case isFalse.isFalse.isFalse.isTrue hp => exact List.mem_singleton.mp h ▸ hp
    case isFalse.isFalse.isFalse.isFalse   => exact isPrintable_of_mem_codePoint h
    all_goals
      obtain h | h := by simpa using h
      · exact h ▸ hs
      · exact h ▸ isPrintable_ascii (by decide) (by decide)

theorem isPrintable_quote (s : List Char) : isPrintable (Quoted.quote s) := by
  rw [Quoted.quote]
  split <;> exact isPrintable_ascii (by decide) (by decide)

namespace Printable

theorem append {s t : String} (hs : Printable s) (ht : Printable t) : Printable (s ++ t) := by
  intro x hx
  rw [String.toList_append, List.mem_append] at hx
  exact hx.elim (hs x) (ht x)

theorem ascii {s : String} (h : s.toList.all fun x => 32 ≤ x.toNat ∧ x.toNat < 127) :
    Printable s := by
  intro x hx
  have := of_decide_eq_true <| List.all_eq_true.mp h x hx
  exact isPrintable_ascii this.left this.right

theorem newline_notMem {s : String} (h : Printable s) : '\n' ∉ s.toList := fun hn =>
  absurd (h _ hn) (by decide +kernel)

theorem quoted (s : String) : Printable (quoted s) := by
  intro x hx
  rw [Text.quoted, String.toList_ofList] at hx
  simp only [Quoted.encode, List.cons_append, List.mem_cons, List.mem_append, List.mem_flatMap,
    List.not_mem_nil, or_false] at hx
  obtain h | ⟨c, -, h⟩ | h := hx
  case inl     => exact h ▸ isPrintable_quote _
  case inr.inl => exact isPrintable_of_mem_escape (isPrintable_quote _) h
  case inr.inr => exact h ▸ isPrintable_quote _

theorem natural (n : Nat) : Printable (Numeral.decimal n) := fun _ h =>
  isPrintable_of_isDigit <| Numeral.isDigit_of_mem_decimal h

theorem decimal : (v : Int) → Printable (Numeral.decimal v)
  | .ofNat n   => natural n
  | .negSucc n => append (ascii (by decide)) (natural (n + 1))

end Printable

end Abacus.Text

namespace Abacus

open Text

theorem Operator.sign_printable (o : Operator) : Printable o.sign.toString := by
  cases o <;> exact .ascii (by decide)

theorem Kind.name_printable (k : Kind) : Printable k.name := by
  rcases k with (_ | _ | _ | _) | _ | _ <;> exact .ascii (by decide)

theorem Value.written_printable : (v : Value) → Printable v.written
  | none      => .ascii (by decide)
  | integer v => .decimal v
  | text s    => .quoted s

theorem Token.written_printable (t : Token) : Printable t.written :=
  .append (.append (.append (.append (.ascii (by decide)) t.kind.name_printable)
    (.ascii (by decide))) t.value.written_printable) (.ascii (by decide))

theorem Step.written_printable (s : Step) : Printable s.written :=
  .append (.append (.append (.append (.append (.append (.decimal s.left) (.ascii (by decide)))
    s.operator.sign_printable) (.ascii (by decide))) (.decimal s.right)) (.ascii (by decide)))
    (.decimal s.value)

theorem Event.written_printable : (e : Event) → Printable e.written
  | token t => t.written_printable
  | step s  => s.written_printable

end Abacus
