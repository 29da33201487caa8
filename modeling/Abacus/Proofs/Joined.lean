import Abacus.Proofs.Nth
import Abacus.Proofs.Readings

namespace Abacus

theorem Feed.of_readings {feed : Feed} {ls : List Lexeme} {rs : List Reading}
    (h : feed.readings = ls.map .lexeme ++ rs) :
    feed.tokens = ls.map Lexeme.token ++ rs.filterMap (·.token.toOption) ∧
      feed.fault? = rs.findSome? Reading.fault? := by
  have ht : (ls.map Reading.lexeme).filterMap (·.token.toOption) = ls.map Lexeme.token := by
    rw [List.filterMap_map, ←List.filterMap_eq_map]
    rfl
  have hf : (ls.map Reading.lexeme).findSome? Reading.fault? = none := by
    simp [List.findSome?_eq_none_iff, Reading.fault?]
  rw [tokens_eq_filterMap, fault?_eq_findSome?, h, List.filterMap_append, List.findSome?_append, ht,
    hf, Option.none_or]
  exact ⟨rfl, rfl⟩

-- No run of digits goes on from `s` into `more`.
def Parted (s more : List Char) : Prop :=
  (∃ x ∈ s.getLast?, x.isDigit) → Undigited more

namespace Parted

variable {r s w more : List Char}

theorem of_not (h : ¬((∃ x ∈ s.getLast?, x.isDigit) ∧ ∃ x ∈ more.head?, x.isDigit)) :
    Parted s more := by
  intro hs x hx
  by_contra hn
  exact h ⟨hs, x, hx, by simpa using hn⟩

theorem of_append (h : Parted (r ++ s) more) : Parted s more :=
  fun ⟨x, hx, hd⟩ => h ⟨x, by simp [List.getLast?_append, Option.mem_def.mp hx], hd⟩

theorem undigited (h : Parted (s ++ w) more) (hw : w ≠ []) (hd : ∀ x ∈ w, x.isDigit) :
    Undigited more :=
  h.of_append ⟨w.getLast hw, List.getLast?_eq_some_getLast hw, hd _ (List.getLast_mem hw)⟩

end Parted

theorem Ended.eq_nil {rest : List Char} (h : Ended rest)
    (hb : ∀ x ∈ rest, Cursor.isTerminator x = false) : rest = [] := by
  cases rest
  case nil         => rfl
  case cons x rest => exact absurd (h x rfl) (by simp [hb])

namespace Cursor

variable {c d : Cursor}

def behind (c : Cursor) (more : List Char) : Cursor where
  pos  := c.pos + c.rest.length
  rest := more

theorem Reaches.behind_eq (more : List Char) : c.Reaches d → d.behind more = c.behind more := by
  intro ⟨s, _, hr, hp⟩
  have : d.pos + d.rest.length = c.pos + c.rest.length := by
    rw [hr, hp, List.length_append, Nat.add_assoc]
  rw [behind, this, behind]

theorem readings_shift (c : Cursor) (k : Nat) :
    (c.shift k).feed.readings = c.feed.readings.map (·.shift k) := by
  induction c using feed_induction
  case lexeme l d hr hf hi =>
    rw [(Cursor.shift k _).feed_eq, (hr.shift k).read_eq, hf]
    exact congrArg (.lexeme l :: ·) hi
  case eof hr hf   => rw [(Cursor.shift k _).feed_eq, (hr.shift k).read_eq, hf]; rfl
  case fault hr hf => rw [(Cursor.shift k _).feed_eq, (hr.shift k).read_eq, hf]; rfl

end Cursor

theorem Cursor.feed_akin {R : Fault → Fault → Prop} {i j : Nat}
    (h : ∀ f : Fault, R (f.shift i) (f.shift j)) (c : Cursor) :
    (c.shift i).feed.Akin R (c.shift j).feed := by
  rw [Feed.Akin, readings_shift, readings_shift, List.forall₂_map_left_iff,
    List.forall₂_map_right_iff]
  refine List.forall₂_same.mpr fun r _ => ?_
  cases r
  case lexeme => exact .lexeme
  case eof    => exact .eof
  case fault  => exact .fault (h _)

namespace Reads

variable {c d e : Cursor} {r : Reading} {s more : List Char}

theorem undigited_append (h : Reads c r d) (hp : Parted c.rest more) (hr : r.Digits)
    (hu : Undigited d.rest) : Undigited (d.rest ++ more) := by
  refine hu.append fun hd => ?_
  cases h
  case eof | character => exact hr.elim
  case lexeme hw _ hc _ =>
    rw [hc, hd, List.append_nil] at hp
    cases hw
    case operator        => exact hr.elim
    case integer hw hn _ => exact hp.undigited (List.length_pos_iff.mp hn.1) hw
  case literal hw hl _ hc _ =>
    rw [hc, hd, List.append_nil] at hp
    exact hp.undigited (List.length_pos_iff.mp <| Nat.zero_lt_of_lt hl) hw

theorem behind_spaces (h : Reads e r d) (hs : Spaces s) (hr : c.rest = s ++ e.rest)
    (hp : e.pos = c.pos + s.length) : Reads c r d := by
  have happ {t : List Char} (ht : Spaces t) : Spaces (s ++ t) := List.forall_mem_append.mpr ⟨hs, ht⟩
  cases h
  case lexeme t w ht hw hm he hd =>
    exact .lexeme (s ++ t) w d (happ ht) hw hm (by simp [hr, he]) (by simp [hd, hp]; omega)
  case eof t ht he hd hp' =>
    exact .eof (s ++ t) d (happ ht) he (by simp [hr, hd]) (by simp [hp', hp]; omega)
  case literal t w ht hw hl hm he hd =>
    have := Reads.literal (c := c) (s ++ t) w d (happ ht) hw hl hm (by simp [hr, he])
      (by simp [hd, hp]; omega)
    simpa [hp, Nat.add_assoc] using this
  case character t x tl ht hx hd he hp' =>
    exact .character (s ++ t) x tl d (happ ht) hx hd (by simp [hr, he]) (by simp [hp', hp]; omega)

end Reads

namespace Cursor

variable {c d : Cursor} {more : List Char}

theorem feed_spaces {s : List Char} (hs : Spaces s) (hr : c.rest = s ++ d.rest)
    (hp : d.pos = c.pos + s.length) : c.feed = d.feed := by
  have ⟨r, e, h⟩ := Reads.exists_reads d
  rw [feed_eq, (h.behind_spaces hs hr hp).read_eq, feed_eq, h.read_eq]

theorem append_feed (h : Reads c .eof d) (hb : ∀ x ∈ c.rest, isTerminator x = false) :
    (c.append more).feed = (c.behind more).feed := by
  cases h
  case eof s hs he hr _ =>
    have hd : d.rest = [] := he.eq_nil fun x hx => hb x <| hr ▸ List.mem_append_right s hx
    rw [hd, List.append_nil] at hr
    exact feed_spaces hs (by simp [append, behind, hr]) (by simp [append, behind, hr])

theorem readings_joined (c : Cursor) (hb : ∀ x ∈ c.rest, isTerminator x = false)
    (hp : Parted c.rest more) :
    (c.append more).feed.readings =
      c.feed.lexemes.map .lexeme ++
        c.feed.fault?.elim (c.behind more).feed.readings ([.fault ·]) := by
  induction c using feed_induction
  case lexeme c l d hr hf hi =>
    have ⟨s, _, hc, _⟩ := hr.reaches
    have ha : Reads (c.append more) (.lexeme l) (d.append more) :=
      hr.append (hr.undigited_append hp) nofun
    have := hi (fun x hx => hb x <| hc ▸ List.mem_append_right s hx) (hc ▸ hp).of_append
    rw [hr.reaches.behind_eq] at this
    rw [feed_eq, ha.read_eq, hf]
    exact congrArg (.lexeme l :: ·) this
  case eof hr hf => rw [append_feed hr hb, hf]; rfl
  case fault f d hr hf =>
    have ha := hr.append (hr.undigited_append hp) nofun
    rw [feed_eq, ha.read_eq, hf]
    rfl

theorem tokens_shift (c : Cursor) (k : Nat) : (c.shift k).feed.tokens = c.feed.tokens := by
  rw [Feed.tokens_eq_filterMap, readings_shift, List.filterMap_map, Feed.tokens_eq_filterMap]
  exact List.filterMap_congr fun r _ => by cases r <;> rfl

theorem fault?_shift (c : Cursor) (k : Nat) :
    (c.shift k).feed.fault? = c.feed.fault?.map (·.shift k) := by
  rw [Feed.fault?_eq_findSome?, readings_shift, List.findSome?_map, Feed.fault?_eq_findSome?,
    List.map_findSome?]
  exact congrArg (List.findSome? · _) <| funext fun r => by cases r <;> rfl

theorem behind_eq_shift (c : Cursor) (more : List Char) :
    c.behind more = (start more).shift (c.pos + c.rest.length) := by
  simp [behind, start, seek, shift]

theorem start_unbroken {u : String} (hu : '\n' ∉ u.toList ∧ '\r' ∉ u.toList) :
    ∀ x ∈ (start u.toList).rest, isTerminator x = false := by
  intro x hx
  simp only [isTerminator, Bool.or_eq_false_iff, decide_eq_false_iff_not]
  exact ⟨fun h => hu.left (h ▸ hx), fun h => hu.right (h ▸ hx)⟩

theorem behind_start (u : String) (more : List Char) :
    (start u.toList).behind more = (start more).shift u.length := by
  simp [behind_eq_shift, start, seek, String.length_toList]

theorem joined_eof (hb : ∀ x ∈ c.rest, isTerminator x = false) (hp : Parted c.rest more)
    (hf : c.feed.fault? = none) :
    (c.append more).feed.tokens = c.feed.lexemes.map Lexeme.token ++ (start more).feed.tokens ∧
      (c.append more).feed.fault? =
        (start more).feed.fault?.map (·.shift (c.pos + c.rest.length)) := by
  have h := c.readings_joined hb hp
  rw [hf, Option.elim, behind_eq_shift] at h
  have ⟨ht, he⟩ := Feed.of_readings h
  rw [ht, he, ←Feed.tokens_eq_filterMap, ←Feed.fault?_eq_findSome?, tokens_shift, fault?_shift]
  exact ⟨rfl, rfl⟩

theorem joined_fault {f : Fault} (hb : ∀ x ∈ c.rest, isTerminator x = false)
    (hp : Parted c.rest more) (hf : c.feed.fault? = some f) :
    (c.append more).feed.tokens = c.feed.tokens ∧ (c.append more).feed.fault? = some f := by
  have h := c.readings_joined hb hp
  rw [hf, Option.elim] at h
  have ⟨ht, he⟩ := Feed.of_readings h
  rw [ht, he, c.feed.tokens_eq, hf]
  exact ⟨rfl, rfl⟩

end Cursor

theorem Feed.fault?_eq_none {feed : Feed} (h : .eof ∈ feed.tokens) : feed.fault? = none := by
  induction feed
  case lexeme l _ _ hi => exact hi <| List.mem_of_ne_of_mem l.token_ne_eof.symm h
  case eof             => rfl
  case fault           => cases h

theorem Nth.append_ended {c d : Cursor} {n : Nat} {r : Reading} {more : List Char} (h : Nth c n r d)
    (hm : Ended more) : Nth (c.append more) n r (d.append more) := by
  induction h
  case here h        => exact .here (h.append_ended hm)
  case behind h _ hi => exact .behind (h.append_ended hm) hi

-- Nothing behind a terminator is looked at: the line is worth the same and logs the same, and reading
-- gives the same and leaves the cursor in the same place, however often it is done.
theorem joined_terminator (sw : Switches) (u v : String) {c : Char} (hc : c = '\n' ∨ c = '\r') :
    evaluate sw (u.push c ++ v) = evaluate sw u ∧
    (Feed.ofText (u.push c ++ v)).tokens = (Feed.ofText u).tokens ∧
    (Feed.ofText (u.push c ++ v)).fault? = (Feed.ofText u).fault? ∧
    ∀ n, ((Cursor.start (u.push c ++ v).toList).nth n).1 = ((Cursor.start u.toList).nth n).1 ∧
      ((Cursor.start (u.push c ++ v).toList).nth n).2.pos =
        ((Cursor.start u.toList).nth n).2.pos := by
  have hm : Ended (c :: v.toList) := by
    intro x hx
    cases hx
    obtain rfl | rfl := hc <;> rfl
  have ht : (u.push c ++ v).toList = u.toList ++ c :: v.toList := by simp
  have hu : u.push c ++ v = u ++ String.ofList (c :: v.toList) := by
    rw [←String.toList_inj, ht, String.toList_append, String.toList_ofList]
  have hs : Cursor.start (u.push c ++ v).toList = (Cursor.start u.toList).append (c :: v.toList) := by
    rw [ht, Cursor.start_append]
  have hr : (Feed.ofText (u.push c ++ v)).readings = (Feed.ofText u).readings := by
    rw [Feed.ofText, hs, Cursor.readings_append _ hm, Feed.ofText]
  refine ⟨hu ▸ evaluate_append sw u hm, ?_, ?_, fun n => ?_⟩
  case refine_1 => rw [Feed.tokens_eq_filterMap, hr, Feed.tokens_eq_filterMap]
  case refine_2 => rw [Feed.fault?_eq_findSome?, hr, Feed.fault?_eq_findSome?]
  case refine_3 =>
    obtain ⟨r, d, h⟩ := Nth.exists_nth (.start u.toList) n
    rw [hs, (h.append_ended hm).nth_eq, h.nth_eq]
    exact ⟨rfl, rfl⟩

theorem joined_terminator_digits :
    ('\r' = '\n' ∨ '\r' = '\r') ∧
      evaluate ⟨true, true⟩ ("12".push '\r' ++ "3\n+") = evaluate ⟨true, true⟩ "12" ∧
      (Feed.ofText ("12".push '\r' ++ "3\n+")).tokens = [.integer 12, .eof] := by
  have h := joined_terminator ⟨true, true⟩ "12" "3\n+" (.inr rfl)
  exact ⟨.inr rfl, h.left, h.right.left.trans <| by decide +kernel⟩

-- What reads a text without a terminator reads on in the text behind it, in the same way as from its
-- beginning, but for the columns. A fault of the first text ends both.
theorem joined_feed (u v : String) (hu : '\n' ∉ u.toList ∧ '\r' ∉ u.toList)
    (hd : ¬((∃ x ∈ u.toList.getLast?, x.isDigit) ∧ ∃ x ∈ v.toList.head?, x.isDigit)) :
    (∀ ts, (Feed.ofText u).tokens = ts ++ [.eof] →
      (Feed.ofText (u ++ v)).tokens = ts ++ (Feed.ofText v).tokens ∧
        (Feed.ofText (u ++ v)).fault? = (Feed.ofText v).fault?.map (·.shift u.length)) ∧
    ∀ f, (Feed.ofText u).fault? = some f →
      (Feed.ofText (u ++ v)).tokens = (Feed.ofText u).tokens ∧
        (Feed.ofText (u ++ v)).fault? = some f := by
  have hb := Cursor.start_unbroken hu
  have hp : Parted (Cursor.start u.toList).rest v.toList := .of_not hd
  rw [Feed.ofText, Feed.ofText, String.toList_append, Cursor.start_append]
  constructor
  case left =>
    intro ts ht
    have hf := Feed.fault?_eq_none (ht ▸ List.mem_append_right ts (List.mem_singleton_self _))
    have hl := (Feed.tokens_eq_iff.mp ⟨ht, hf⟩).left
    have h := Cursor.joined_eof hb hp hf
    have hk : (Cursor.start u.toList).pos + (Cursor.start u.toList).rest.length = u.length := by
      simp [Cursor.start, Cursor.seek, String.length_toList]
    rw [hl, hk] at h
    exact h
  case right => exact fun f => Cursor.joined_fault hb hp

theorem joined_feed_spaces :
    ('\n' ∉ "1+ ".toList ∧ '\r' ∉ "1+ ".toList) ∧
      ¬((∃ x ∈ "1+ ".toList.getLast?, x.isDigit) ∧ ∃ x ∈ " 20 ?".toList.head?, x.isDigit) ∧
      (Feed.ofText ("1+ " ++ " 20 ?")).tokens = [.integer 1, .operator .plus] ++ [.integer 20] ∧
      (Feed.ofText ("1+ " ++ " 20 ?")).fault? = some (.character '?' 8) := by
  have hu : '\n' ∉ "1+ ".toList ∧ '\r' ∉ "1+ ".toList := by decide
  have hd : ¬((∃ x ∈ "1+ ".toList.getLast?, x.isDigit) ∧ ∃ x ∈ " 20 ?".toList.head?, x.isDigit) := by
    simp
  have h := (joined_feed "1+ " " 20 ?" hu hd).left [.integer 1, .operator .plus] (by decide +kernel)
  exact ⟨hu, hd, h.left.trans <| by decide +kernel, h.right.trans <| by decide +kernel⟩

end Abacus
