import LateBinding.Json.Printer
import LateBinding.Proofs.Json.Quoting
import LateBinding.Proofs.Table

/-!
# Values survive writing

What the readers make of the text that `layout` writes.

`Reads r s a` says that the reader `r` takes the value `a` from the text `s`, whatever white space
stands before it and whatever text behind.  Reading an array or object piecewise
(`nextItem_first`, `nextItem_next`, `nextItem_end` and the same of members) comes to reading each
of its parts, so a reader of arrays takes an array from its text if the reader of its items takes
each item from its own (`items_layout`), and a reader of objects does the same for the values of
its members (`members_layout`).

It follows by induction on the value that `Reader.value` reads back every value that nests no
deeper than it looks, repeats no name in an object and holds no number (`value_layout`,
`run_pretty`).
-/

namespace LateBinding.Json

namespace Reader

variable {α β : Type}

/-- A reader that succeeds hands its value and the rest of the text to what comes next. -/
theorem bind_of_ok {r : Reader α} {f : α → Reader β} {s s' : List Char} {a : α}
    (h : r s = .ok (a, s')) : (r >>= f) s = f a s' := by
  show (r s >>= fun p => f p.1 p.2) = f a s'
  rw [h]
  rfl

theorem get_here (s : List Char) : (get : Reader (List Char)) s = .ok (s, s) := rfl

theorem advance_here (c : Char) (s : List Char) : advance (c :: s) = .ok ((), s) := rfl

/-! ### White space -/

/-- The text is white space. -/
def Blank (s : List Char) : Prop := ∀ c ∈ s, isSpace c = true

theorem blank_nil : Blank [] := by simp [Blank]

theorem blank_space : Blank [' '] := by simp [Blank, isSpace]

theorem blank_newline (level : Nat) : Blank (newline level) := by
  intro c hc
  rw [newline, List.mem_cons, List.mem_replicate] at hc
  obtain rfl | ⟨-, rfl⟩ := hc <;> rfl

theorem peek_blank {blanks : List Char} (hb : Blank blanks) {c : Char} (hc : isSpace c = false)
    (s : List Char) : peek (blanks ++ c :: s) = .ok (some c, c :: s) := by
  have rest : (blanks ++ c :: s).dropWhile isSpace = c :: s := by
    rw [List.dropWhile_append_of_pos hb, List.dropWhile_cons_of_neg (by simp [hc])]
  simp [peek, rest]

/-! ### What a reader makes of a text -/

/-- A reader takes this value from this text, whatever white space stands before it and whatever
text behind it. -/
structure Reads (r : Reader α) (s : List Char) (a : α) : Prop where
  /-- The text does not start like white space or like the end of an array. -/
  opens : ∃ c t, s = c :: t ∧ isSpace c = false ∧ c ≠ ']'
  /-- The text and no more is read. -/
  reads : ∀ {blanks : List Char}, Blank blanks → ∀ rest, r (blanks ++ (s ++ rest)) = .ok (a, rest)

theorem Reads.here {r : Reader α} {s : List Char} {a : α} (h : Reads r s a) (rest : List Char) :
    r (s ++ rest) = .ok (a, rest) :=
  h.reads blank_nil rest

/-- What is read is handed on. -/
theorem Reads.bind {r : Reader α} {f : α → Reader β} {s : List Char} {a : α} {b : β}
    (h : Reads r s a) (hf : ∀ rest, f a rest = .ok (b, rest)) : Reads (r >>= f) s b where
  opens := h.opens
  reads hb rest := (bind_of_ok (h.reads hb rest)).trans (hf rest)

/-- A whole text is read. -/
theorem Reads.run {r : Reader α} {s : List Char} {a : α} (h : Reads r s a) :
    r.run (String.ofList s) = .ok a := by
  have taken : r s = .ok (a, []) := by simpa using h.here []
  have all : (do let a ← r; endText; pure a : Reader α) s = .ok (a, []) := bind_of_ok taken
  rw [Reader.run, StateT.run', String.toList_ofList, all]
  rfl

theorem encode_append (name : String) (rest : List Char) :
    Quote.encode name.toList ++ rest =
      '"' :: (name.toList.flatMap Quote.encodeChar ++ '"' :: rest) := by
  simp [Quote.encode]

theorem reads_string (text : String) : Reads string (Quote.encode text.toList) text where
  opens := ⟨'"', _, rfl, rfl, by decide⟩
  reads hb rest := by
    rw [encode_append, string, bind_of_ok (peek_blank hb rfl _)]
    exact quote_encoded text rest

/-! ### The parts of an array or object -/

/-- The parts of an array or object behind the first one, each behind a comma. -/
def further (sep : List Char) (parts : List (List Char)) : List Char :=
  parts.flatMap fun part => ',' :: (sep ++ part)

theorem further_cons_append (sep part : List Char) (parts : List (List Char)) (s : List Char) :
    further sep (part :: parts) ++ s = ',' :: (sep ++ (part ++ (further sep parts ++ s))) := by
  simp [further]

theorem layoutItems_eq (level : Nat) (vs : List Json) :
    layoutItems level vs = further (newline level) (vs.map (layout level)) := by
  induction vs with
  | nil => rfl
  | cons v vs ih => simpa [layoutItems, further] using ih

/-- A name and the text of its value. -/
def memberText (text : α → List Char) (m : String × α) : List Char :=
  Quote.encode m.1.toList ++ ':' :: ' ' :: text m.2

theorem layoutMembers_eq (level : Nat) (ms : List (String × Json)) :
    layoutMembers level ms = further (newline level) (ms.map (memberText (layout level))) := by
  induction ms with
  | nil => rfl
  | cons m ms ih => simpa [layoutMembers, further, memberText] using ih

/-! ### Arrays -/

theorem nextItem_first {item : Reader α} {s : List Char} {a : α} (h : Reads item s a)
    {blanks : List Char} (hb : Blank blanks) (rest : List Char) :
    nextItem true item (blanks ++ (s ++ rest)) = .ok (some a, rest) := by
  have taken := h.here rest
  obtain ⟨c, t, rfl, hc, hend⟩ := h.opens
  refine (bind_of_ok (peek_blank hb hc _)).trans ?_
  simp only [if_true]
  exact bind_of_ok taken

theorem nextItem_next {item : Reader α} {s : List Char} {a : α} (h : Reads item s a)
    {blanks : List Char} (hb : Blank blanks) (rest : List Char) :
    nextItem false item (',' :: (blanks ++ (s ++ rest))) = .ok (some a, rest) := by
  have taken := h.here rest
  obtain ⟨c, t, rfl, hc, hend⟩ := h.opens
  refine (bind_of_ok (peek_blank blank_nil (rfl : isSpace ',' = false) _)).trans ?_
  refine (bind_of_ok (advance_here _ _)).trans ?_
  refine (bind_of_ok (peek_blank hb hc _)).trans ?_
  simp only
  exact bind_of_ok taken

theorem nextItem_end (first : Bool) (item : Reader α) {blanks : List Char} (hb : Blank blanks)
    (rest : List Char) :
    nextItem first item (blanks ++ ']' :: rest) = .ok (none, ']' :: rest) :=
  bind_of_ok (peek_blank hb rfl _)

theorem endItems_here (rest : List Char) : endItems (']' :: rest) = .ok ((), rest) := rfl

/-- The items behind the first one are read up to the end of the array. -/
theorem itemsUpTo_further {item : Reader α} (text : α → List Char) {as : List α}
    (h : ∀ a ∈ as, Reads item (text a) a) {sep gap : List Char} (hs : Blank sep) (hg : Blank gap)
    (rest : List Char) {bound : Nat}
    (hb : (further sep (as.map text) ++ (gap ++ ']' :: rest)).length < bound) :
    itemsUpTo item bound false (further sep (as.map text) ++ (gap ++ ']' :: rest)) =
      .ok (as, ']' :: rest) := by
  induction as generalizing bound with
  | nil =>
    obtain _ | bound := bound
    · omega
    · exact bind_of_ok (nextItem_end false item hg rest)
  | cons a as ih =>
    obtain _ | bound := bound
    · omega
    · rw [List.map_cons, further_cons_append] at hb ⊢
      have fits : (further sep (as.map text) ++ (gap ++ ']' :: rest)).length < bound := by
        simp only [List.length_cons, List.length_append] at hb ⊢
        omega
      refine (bind_of_ok (nextItem_next (h a List.mem_cons_self) hs _)).trans ?_
      exact bind_of_ok (ih (fun b hb => h b (List.mem_cons_of_mem _ hb)) fits)

theorem itemsRest_of_itemsUpTo {item : Reader α} {s rest : List Char} {as : List α}
    (h : itemsUpTo item (s.length + 1) true s = .ok (as, ']' :: rest)) :
    itemsRest item s = .ok (as, rest) := by
  refine (bind_of_ok (get_here s)).trans ?_
  exact (bind_of_ok h).trans (bind_of_ok (endItems_here rest))

/-- An array is read back behind its bracket if its items are. -/
theorem itemsRest_layout {item : Reader α} (toJson : α → Json) {as : List α} {level : Nat}
    (h : ∀ a ∈ as, Reads item (layout (level + 1) (toJson a)) a) :
    ∃ t, layout level (.array (as.map toJson)) = '[' :: t ∧
      ∀ rest, itemsRest item (t ++ rest) = .ok (as, rest) := by
  cases as with
  | nil =>
    refine ⟨[']'], by simp [layout], fun rest => itemsRest_of_itemsUpTo ?_⟩
    exact bind_of_ok (nextItem_end true item blank_nil rest)
  | cons a as =>
    let text (a : α) : List Char := layout (level + 1) (toJson a)
    refine ⟨newline (level + 1) ++ (text a ++ (further (newline (level + 1)) (as.map text) ++
      (newline level ++ [']']))), ?_, fun rest => itemsRest_of_itemsUpTo ?_⟩
    · simp [layout, layoutItems_eq, text, Function.comp_def]
    · have first := h a List.mem_cons_self
      simp only [List.append_assoc, List.singleton_append]
      refine (bind_of_ok (nextItem_first first (blank_newline _) _)).trans ?_
      refine bind_of_ok (itemsUpTo_further text (fun b hb => h b (List.mem_cons_of_mem _ hb))
        (blank_newline _) (blank_newline _) rest ?_)
      -- the first item took at least one character
      obtain ⟨c, t, ht, -⟩ := first.opens
      simp only [text, ht, List.length_append, List.length_cons]
      omega

/-- An array is read back if its items are. -/
theorem items_layout {item : Reader α} (toJson : α → Json) {as : List α} {level : Nat}
    (h : ∀ a ∈ as, Reads item (layout (level + 1) (toJson a)) a) :
    Reads (items item) (layout level (.array (as.map toJson))) as := by
  obtain ⟨t, ht, taken⟩ := itemsRest_layout toJson h
  rw [ht]
  refine ⟨⟨'[', t, rfl, rfl, by decide⟩, fun hb rest => ?_⟩
  refine (bind_of_ok (peek_blank hb rfl _)).trans ?_
  exact (bind_of_ok (advance_here _ _)).trans (taken rest)

/-! ### Objects -/

theorem nextMember_first (name : String) {blanks : List Char} (hb : Blank blanks)
    (rest : List Char) :
    nextMember true quote (blanks ++ (Quote.encode name.toList ++ rest)) =
      .ok (some name, rest) := by
  rw [encode_append]
  refine (bind_of_ok (peek_blank hb rfl _)).trans ?_
  refine (bind_of_ok (advance_here _ _)).trans ?_
  exact bind_of_ok (quote_encoded name rest)

theorem nextMember_next (name : String) {blanks : List Char} (hb : Blank blanks)
    (rest : List Char) :
    nextMember false quote (',' :: (blanks ++ (Quote.encode name.toList ++ rest))) =
      .ok (some name, rest) := by
  rw [encode_append]
  refine (bind_of_ok (peek_blank blank_nil (rfl : isSpace ',' = false) _)).trans ?_
  refine (bind_of_ok (advance_here _ _)).trans ?_
  refine (bind_of_ok (peek_blank hb rfl _)).trans ?_
  refine (bind_of_ok (advance_here _ _)).trans ?_
  exact bind_of_ok (quote_encoded name rest)

theorem nextMember_end (first : Bool) (name : Reader α) {blanks : List Char} (hb : Blank blanks)
    (rest : List Char) :
    nextMember first name (blanks ++ '\x7d' :: rest) = .ok (none, '\x7d' :: rest) :=
  bind_of_ok (peek_blank hb rfl _)

theorem endMembers_here (rest : List Char) : endMembers ('\x7d' :: rest) = .ok ((), rest) := rfl

theorem colon_here (rest : List Char) : colon (':' :: rest) = .ok ((), rest) := rfl

/-- The members behind the first one are read up to the end of the object. -/
theorem membersUpTo_further {member : Reader α} (text : α → List Char) {ms : List (String × α)}
    (h : ∀ m ∈ ms, Reads member (text m.2) m.2) {sep gap : List Char} (hs : Blank sep)
    (hg : Blank gap) (rest : List Char) {bound : Nat}
    (hb : (further sep (ms.map (memberText text)) ++ (gap ++ '\x7d' :: rest)).length < bound) :
    membersUpTo quote (fun _ => member) bound false
        (further sep (ms.map (memberText text)) ++ (gap ++ '\x7d' :: rest)) =
      .ok (ms, '\x7d' :: rest) := by
  induction ms generalizing bound with
  | nil =>
    obtain _ | bound := bound
    · omega
    · exact bind_of_ok (nextMember_end false quote hg rest)
  | cons m ms ih =>
    obtain _ | bound := bound
    · omega
    · rw [List.map_cons, further_cons_append] at hb ⊢
      have fits : (further sep (ms.map (memberText text)) ++
          (gap ++ '\x7d' :: rest)).length < bound := by
        simp only [List.length_cons, List.length_append] at hb ⊢
        omega
      simp only [memberText, List.append_assoc, List.cons_append]
      refine (bind_of_ok (nextMember_next m.1 hs _)).trans ?_
      refine (bind_of_ok (colon_here _)).trans ?_
      refine (bind_of_ok ((h m List.mem_cons_self).reads blank_space _)).trans ?_
      exact bind_of_ok (ih (fun b hb => h b (List.mem_cons_of_mem _ hb)) fits)

theorem membersRest_of_membersUpTo {member : Reader α} {s rest : List Char}
    {ms : List (String × α)}
    (h : membersUpTo quote (fun _ => member) (s.length + 1) true s = .ok (ms, '\x7d' :: rest)) :
    membersRest quote (fun _ => member) s = .ok (ms, rest) := by
  refine (bind_of_ok (get_here s)).trans ?_
  exact (bind_of_ok h).trans (bind_of_ok (endMembers_here rest))

/-- An object is read back behind its brace if the values of its members are. -/
theorem membersRest_layout {member : Reader α} (toJson : α → Json) {ms : List (String × α)}
    {level : Nat} (h : ∀ m ∈ ms, Reads member (layout (level + 1) (toJson m.2)) m.2) :
    ∃ t, layout level (.object (ms.map fun m => (m.1, toJson m.2))) = '\x7b' :: t ∧
      ∀ rest, membersRest quote (fun _ => member) (t ++ rest) = .ok (ms, rest) := by
  cases ms with
  | nil =>
    refine ⟨['\x7d'], by simp [layout], fun rest => membersRest_of_membersUpTo ?_⟩
    exact bind_of_ok (nextMember_end true quote blank_nil rest)
  | cons m ms =>
    let text (a : α) : List Char := layout (level + 1) (toJson a)
    refine ⟨newline (level + 1) ++ (memberText text m ++
      (further (newline (level + 1)) (ms.map (memberText text)) ++
        (newline level ++ ['\x7d']))), ?_, fun rest => membersRest_of_membersUpTo ?_⟩
    · simp only [layout, layoutMembers_eq, memberText, text, Function.comp_def, List.map_map,
        List.map_cons, List.append_assoc, List.cons_append]
      rfl
    · simp only [memberText, List.append_assoc, List.cons_append, List.nil_append]
      refine (bind_of_ok (nextMember_first m.1 (blank_newline _) _)).trans ?_
      refine (bind_of_ok (colon_here _)).trans ?_
      refine (bind_of_ok ((h m List.mem_cons_self).reads blank_space _)).trans ?_
      refine bind_of_ok (membersUpTo_further text (fun b hb => h b (List.mem_cons_of_mem _ hb))
        (blank_newline _) (blank_newline _) rest ?_)
      simp only [List.length_append, List.length_cons]
      omega

/-- An object is read back if the values of its members are. -/
theorem members_layout {member : Reader α} (toJson : α → Json) {ms : List (String × α)}
    {level : Nat} (h : ∀ m ∈ ms, Reads member (layout (level + 1) (toJson m.2)) m.2) :
    Reads (members member) (layout level (.object (ms.map fun m => (m.1, toJson m.2))))
      (Table.ofList ms) := by
  obtain ⟨t, ht, taken⟩ := membersRest_layout toJson h
  rw [ht]
  refine ⟨⟨'\x7b', t, rfl, rfl, by decide⟩, fun hb rest => ?_⟩
  refine (bind_of_ok (peek_blank hb rfl _)).trans ?_
  refine (bind_of_ok (advance_here _ _)).trans ?_
  exact bind_of_ok (taken rest)

/-! ### Any value -/

/-- A value nests at most so deep, repeats no name in an object and holds no number. -/
inductive Readable : Nat → Json → Prop
  | null (depth : Nat) : Readable depth .null
  | bool (depth : Nat) (b : Bool) : Readable depth (.bool b)
  | string (depth : Nat) (text : String) : Readable depth (.string text)
  | array {depth : Nat} {vs : List Json} (items : ∀ v ∈ vs, Readable depth v) :
      Readable (depth + 1) (.array vs)
  | object {depth : Nat} {ms : List (String × Json)} (names : (ms.map Prod.fst).Nodup)
      (values : ∀ m ∈ ms, Readable depth m.2) : Readable (depth + 1) (.object ms)

theorem value_eq_node (depth : Nat) : ∃ array object, value depth = node array object := by
  cases depth with
  | zero => exact ⟨_, _, rfl⟩
  | succ depth => exact ⟨_, _, rfl⟩

/-- A scalar is read back whatever arrays and objects would be read by. -/
theorem reads_node {array object r : Reader Json} {c : Char} {t : List Char} {v : Json}
    (hc : scalar? c = some r) (space : isSpace c = false) (bracket : c ≠ ']')
    (h : ∀ rest, r (c :: (t ++ rest)) = .ok (v, rest)) : Reads (node array object) (c :: t) v where
  opens := ⟨c, t, rfl, space, bracket⟩
  reads hb rest := by
    refine (bind_of_ok (peek_blank hb space _)).trans ?_
    simp only [hc]
    exact h rest

/-- A value is read back from its text. -/
theorem value_layout {depth : Nat} {v : Json} (h : Readable depth v) (level : Nat) :
    Reads (value depth) (layout level v) v := by
  induction h generalizing level with
  | null depth =>
    obtain ⟨array, object, hv⟩ := value_eq_node depth
    rw [hv, layout]
    exact reads_node rfl rfl (by decide) fun _ => rfl
  | bool depth b =>
    obtain ⟨array, object, hv⟩ := value_eq_node depth
    rw [hv]
    cases b with
    | true => exact reads_node rfl rfl (by decide) fun _ => rfl
    | false => exact reads_node rfl rfl (by decide) fun _ => rfl
  | string depth text =>
    obtain ⟨array, object, hv⟩ := value_eq_node depth
    rw [hv, layout]
    refine reads_node rfl rfl (by decide) fun rest => ?_
    have taken : quote (text.toList.flatMap Quote.encodeChar ++ ['"'] ++ rest) =
        .ok (text, rest) := by
      simpa using quote_encoded text rest
    exact (bind_of_ok (advance_here _ _)).trans (bind_of_ok taken)
  | array _ ih =>
    obtain ⟨t, ht, taken⟩ := itemsRest_layout id fun v hv => ih v hv (level + 1)
    rw [List.map_id] at ht
    rw [ht]
    refine ⟨⟨'[', t, rfl, rfl, by decide⟩, fun hb rest => ?_⟩
    refine (bind_of_ok (peek_blank hb rfl _)).trans ?_
    refine (bind_of_ok (advance_here _ _)).trans ?_
    exact bind_of_ok (taken rest)
  | @object depth ms names _ ih =>
    obtain ⟨t, ht, taken⟩ := membersRest_layout id fun m hm => ih m hm (level + 1)
    have same : ms.map (fun m => (m.1, id m.2)) = ms := List.map_id ms
    rw [same] at ht
    rw [ht]
    refine ⟨⟨'\x7b', t, rfl, rfl, by decide⟩, fun hb rest => ?_⟩
    refine (bind_of_ok (peek_blank hb rfl _)).trans ?_
    refine (bind_of_ok (advance_here _ _)).trans ?_
    refine (bind_of_ok (taken rest)).trans ?_
    rw [Table.entries_ofList names]
    rfl

/-- **Values survive writing and reading.** -/
theorem run_pretty {depth : Nat} {v : Json} (h : Readable depth v) :
    (value depth).run v.pretty = .ok v :=
  (value_layout h 0).run

end Reader

end LateBinding.Json
