import Abacus.Proofs.Reads
import Mathlib.Algebra.Group.Nat.Defs

namespace Abacus

namespace Text.Quoted

def digit (c : Char) : Nat :=
  if c.isDigit then c.toNat - '0'.toNat else c.toNat - 'a'.toNat + 10

def number (digits : List Char) : Nat :=
  digits.foldl (fun n c => n * 16 + digit c) 0

def unescape : List Char → Option (Char × List Char)
  | '\\' :: 'n' :: s => some ('\n', s)
  | '\\' :: 'r' :: s => some ('\r', s)
  | '\\' :: 't' :: s => some ('\t', s)
  | '\\' :: 'x' :: s => some (point 2 s)
  | '\\' :: 'u' :: s => some (point 4 s)
  | '\\' :: 'U' :: s => some (point 8 s)
  | '\\' :: c :: s   => some (c, s)
  | c :: s           => some (c, s)
  | []               => none
where
  point (width : Nat) (s : List Char) : Char × List Char :=
    (Char.ofNat (number (s.take width)), s.drop width)

variable {q c d : Char} {s t : List Char} {width n : Nat}

theorem number_hex (h : n < 16 ^ width) : number (hex width n) = n := by
  have hd : ∀ k < 16, digit (Nat.digitChar k) = k := by decide
  induction width generalizing n
  case zero => exact (Nat.lt_one_iff.mp h).symm
  case succ width hi =>
    have hn : n / 16 < 16 ^ width := Nat.div_lt_of_lt_mul <| by rwa [Nat.mul_comm, ←Nat.pow_succ]
    have hm := hd (n % 16) (Nat.mod_lt n (by decide))
    rw [number, hex, List.foldl_append, ←number, hi hn, List.foldl_cons, hm]
    exact Nat.div_add_mod' n 16

theorem point_hex (h : c.toNat < 16 ^ width) (s : List Char) :
    unescape.point width (hex width c.toNat ++ s) = (c, s) := by
  have hl := hex_length width c.toNat
  rw [unescape.point, List.take_left' hl, List.drop_left' hl, number_hex h, Char.ofNat_toNat]

theorem unescape_cons (h : c ≠ '\\') (s : List Char) : unescape (c :: s) = some (c, s) := by
  unfold unescape
  split <;> simp_all

theorem unescape_codePoint (c : Char) (s : List Char) :
    unescape (codePoint c ++ s) = some (c, s) := by
  have hc : c.toNat < 16 ^ 8 := c.val.toNat_lt
  rw [codePoint]
  split_ifs with h₁ h₂
  · exact congrArg some <| point_hex h₁ s
  · exact congrArg some <| point_hex h₂ s
  · exact congrArg some <| point_hex hc s

theorem unescape_escape (hq : q = '\'' ∨ q = '"') (c : Char) (s : List Char) :
    unescape (escape q c ++ s) = some (c, s) := by
  rw [escape]
  split_ifs with h hn hr ht
  · obtain rfl | rfl := h
    · obtain rfl | rfl := hq <;> rfl
    · rfl
  · rw [hn]; rfl
  · rw [hr]; rfl
  · rw [ht]; rfl
  · exact unescape_cons (fun hc => h (.inr hc)) s
  · exact unescape_codePoint c s

theorem flatMap_escape_inj (hq : q = '\'' ∨ q = '"')
    (h : s.flatMap (escape q) ++ [q] = t.flatMap (escape q) ++ [q]) : s = t := by
  have hn : unescape [q] = some (q, []) := by obtain rfl | rfl := hq <;> rfl
  induction s generalizing t
  case nil =>
    cases t
    case nil => rfl
    case cons d t =>
      rw [List.flatMap_nil, List.nil_append, List.flatMap_cons, List.append_assoc] at h
      have hd := congrArg unescape h
      rw [hn, unescape_escape hq] at hd
      simp at hd
  case cons c s hi =>
    have hc := congrArg unescape h
    rw [List.flatMap_cons, List.append_assoc, unescape_escape hq] at hc
    cases t
    case nil =>
      rw [List.flatMap_nil, List.nil_append, hn] at hc
      simp at hc
    case cons d t =>
      rw [List.flatMap_cons, List.append_assoc, unescape_escape hq] at hc
      obtain ⟨rfl, ht⟩ := Prod.mk.inj <| Option.some.inj hc
      rw [hi ht]

theorem quote_cases (s : List Char) : quote s = '\'' ∨ quote s = '"' := by
  rw [quote]
  split
  case isTrue  => exact .inr rfl
  case isFalse => exact .inl rfl

-- The choice of the quote can be seen, and so does no harm.
theorem encode_inj : encode s = encode t ↔ s = t where
  mpr h := congrArg encode h
  mp h  := by
    rw [encode, encode, List.cons_append, List.cons_append] at h
    have ⟨hq, ht⟩ := List.cons.inj h
    rw [←hq] at ht
    exact flatMap_escape_inj (quote_cases s) ht

end Text.Quoted

theorem Text.append_cons_inj {x : Char} {s t u v : List Char} (hs : x ∉ s) (ht : x ∉ t)
    (h : s ++ x :: u = t ++ x :: v) : s = t ∧ u = v := by
  have key {s u : List Char} (hs : x ∉ s) :
      (s ++ x :: u).takeWhile (· ≠ x) = s ∧ (s ++ x :: u).dropWhile (· ≠ x) = x :: u := by
    have hp : ∀ y ∈ s, decide (y ≠ x) := fun y hy =>
      decide_eq_true <| ne_of_mem_of_not_mem hy hs
    exact ⟨takeWhile_eq hp (by simp), dropWhile_eq hp (by simp)⟩
  have ⟨hs, hu⟩ := key (u := u) hs
  have ⟨ht, hv⟩ := key (u := v) ht
  rw [h] at hs hu
  exact ⟨hs.symm.trans ht, List.tail_eq_of_cons_eq <| hu.symm.trans hv⟩

theorem Text.quoted_inj {s t : String} : quoted s = quoted t ↔ s = t := by
  rw [quoted, quoted, String.ofList_inj, Quoted.encode_inj, String.toList_inj]

theorem Text.head?_quoted (s : String) :
    ∃ q, (quoted s).toList.head? = some q ∧ (q = '\'' ∨ q = '"') :=
  ⟨_, by simp [quoted, Quoted.encode], Quoted.quote_cases s.toList⟩

namespace Numeral

theorem decimal_natCast_inj {m n : Nat} : decimal m = decimal n ↔ m = n where
  mp h  := by rw [←value_decimal m, h, value_decimal n]
  mpr h := congrArg (fun n : Nat => decimal n) h

theorem decimal_ne_negative (m n : Nat) : decimal m ≠ decimal (.negSucc n) := by
  intro h
  have hs : '-' ∈ (decimal m).toList := by rw [h]; simp [decimal]
  simpa using isDigit_of_mem_decimal hs

theorem decimal_inj {v w : Int} : decimal v = decimal w ↔ v = w where
  mpr h := congrArg decimal h
  mp h  := by
    cases v <;> cases w
    case ofNat.ofNat m n     => exact congrArg Int.ofNat <| decimal_natCast_inj.mp h
    case ofNat.negSucc m n   => exact absurd h <| decimal_ne_negative m n
    case negSucc.ofNat m n   => exact absurd h.symm <| decimal_ne_negative n m
    case negSucc.negSucc m n =>
      have h : decimal (m + 1 : Nat) = decimal (n + 1 : Nat) := by simpa [decimal] using h
      exact congrArg Int.negSucc <| Nat.succ.inj <| decimal_natCast_inj.mp h

end Numeral

namespace Value

def Begins : Value → Char → Prop
  | none, x      => x = 'N'
  | integer _, x => x = '-' ∨ x.isDigit
  | text _, x    => x = '\'' ∨ x = '"'

theorem exists_begins (v : Value) : ∃ x, v.written.toList.head? = some x ∧ v.Begins x := by
  cases v
  case none => exact ⟨'N', rfl, rfl⟩
  case integer v =>
    have ⟨x, tl, hv, hx⟩ := Numeral.exists_cons_decimal v
    exact ⟨x, by simp [written, hv], hx⟩
  case text s => exact Text.head?_quoted s

-- The first character tells values of different kinds apart.
theorem written_inj {v w : Value} : v.written = w.written ↔ v = w where
  mpr h := congrArg written h
  mp h  := by
    have ⟨x, hv, hx⟩ := v.exists_begins
    have ⟨y, hw, hy⟩ := w.exists_begins
    obtain rfl : x = y := by simpa [h, hw] using hv.symm
    clear hv hw
    cases v <;> cases w
    case none.none       => rfl
    case integer.integer => exact congrArg integer <| Numeral.decimal_inj.mp h
    case text.text       => exact congrArg text <| Text.quoted_inj.mp h
    case integer.text    => cases hy <;> simp_all [Begins]
    case text.integer    => cases hx <;> simp_all [Begins]
    all_goals simp_all [Begins]

end Value

theorem Kind.name_inj {k l : Kind} : k.name = l.name ↔ k = l where
  mpr h := congrArg name h
  mp    := by
    have h : ∀ k ∈ all, ∀ l ∈ all, k.name = l.name → k = l := by decide
    exact h k k.mem_all l l.mem_all

theorem Kind.comma_notMem_name (k : Kind) : ',' ∉ k.name.toList := by
  have h : ∀ k ∈ all, ',' ∉ k.name.toList := by decide
  exact h k k.mem_all

namespace Token

theorem toList_written (t : Token) : t.written.toList =
    "Token(".toList ++ (t.kind.name.toList ++ ',' :: (' ' :: t.value.written.toList ++ [')'])) := by
  simp [written]

theorem written_inj {a b : Token} : a.written = b.written ↔ a = b where
  mpr h := congrArg written h
  mp h  := by
    have h := congrArg String.toList h
    rw [toList_written, toList_written, List.append_cancel_left_eq] at h
    have ⟨hk, hv⟩ := Text.append_cons_inj a.kind.comma_notMem_name b.kind.comma_notMem_name h
    have hv := List.append_cancel_right <| List.tail_eq_of_cons_eq hv
    exact Token.mk.injEq .. |>.mpr
      ⟨Kind.name_inj.mp <| String.toList_inj.mp hk, Value.written_inj.mp <| String.toList_inj.mp hv⟩

theorem text?_eq {t : Token} (h : t.value.Writable) : t.text? = some t.written :=
  if_pos h

-- Each token whose value can be written has a text, by which it is shown everywhere, and no two
-- tokens share one.
theorem text?_eq_iff {a b : Token} (ha : a.value.Writable) (hb : b.value.Writable) :
    a.text? = some a.written ∧ b.text? = some b.written ∧
      a.represented? = a.text? ∧ b.represented? = b.text? ∧ (a.text? = b.text? ↔ a = b) := by
  refine ⟨text?_eq ha, text?_eq hb, rfl, rfl, ?_⟩
  rw [text?_eq ha, text?_eq hb, Option.some_inj, written_inj]

theorem text?_eq_iff_alike :
    (Value.integer 3).Writable ∧ Value.none.Writable ∧ (∀ s, (Value.text s).Writable) ∧
      text? ⟨.integer, .integer 3⟩ ≠ text? ⟨.integer, .text "3"⟩ ∧
      text? ⟨.eof, .none⟩ ≠ text? ⟨.eof, .text "None"⟩ ∧
      text? ⟨.operator .plus, .text "\x07'"⟩ ≠ text? ⟨.operator .plus, .text "\\x07'"⟩ := by
  have hi : (Value.integer 3).Writable := by decide +kernel
  have hn : Value.none.Writable := trivial
  have ht (s : String) : (Value.text s).Writable := trivial
  have h₁ := text?_eq_iff (a := ⟨.integer, .integer 3⟩) (b := ⟨.integer, .text "3"⟩) hi (ht _)
  have h₂ := text?_eq_iff (a := ⟨.eof, .none⟩) (b := ⟨.eof, .text "None"⟩) hn (ht _)
  have h₃ := text?_eq_iff (a := ⟨.operator .plus, .text "\x07'"⟩)
    (b := ⟨.operator .plus, .text "\\x07'"⟩) (ht _) (ht _)
  exact ⟨hi, hn, ht, h₁.2.2.2.2.not.mpr (by decide), h₂.2.2.2.2.not.mpr (by decide),
    h₃.2.2.2.2.not.mpr (by decide)⟩

end Token

end Abacus
