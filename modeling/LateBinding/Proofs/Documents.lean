import LateBinding.Mapping.Decode
import LateBinding.Mapping.Encode
import LateBinding.Proofs.Json.Reading

/-!
# Mapping documents survive writing

`Document.text` writes a document and `Document.load` reads one.  The two are not mirror images:
a descriptor is written without the parts it lacks, while reading fills in what is not there,
takes literals of other types and other names of the fields, and decodes declarations only after
all of them are read.

* `declaration_toJson` : a declaration is decoded from the value it is written as.
* `readVariables_layout`, `readRename_layout`, `readDocument_layout` : the parts of a document and
  the document itself are read back from their text.
* `Document.validate_cases` : either no declaration lacks a part that its kind requires, or the
  first one that does is reported.
* `Document.load_text` : **every document survives writing and reading if all its descriptors are
  complete, and otherwise a variable is reported whose descriptor is not.**

Documents are compared with the order of their variables and owners, which is that of the text.
What a kind requires is stated apart from the check (`Descriptor.Lacks`).
-/

namespace LateBinding.Mapping

open Json (Mismatch Reader Quote.encode layout newline)
open Json.Reader

/-! ### What a kind of descriptor requires -/

/-- The descriptor is of a kind that requires this part, and it does not have it. -/
def Descriptor.Lacks (d : Descriptor) : Lack → Prop
  | .providerClass => d.kind = .provider ∧ d.provider = none
  | .staticClass => d.kind = .static ∧ d.provider = none
  | .staticMethod => d.kind = .static ∧ d.value = none
  | .registeredName => d.kind = .registered ∧ d.value = none
  | .value => d.kind = .value ∧ d.value = none

/-- The descriptor carries every part that its kind requires. -/
def Descriptor.Complete (d : Descriptor) : Prop := ∀ lack, ¬d.Lacks lack

/-- Every descriptor of the document is complete. -/
def Document.Complete (doc : Document) : Prop :=
  ∀ name d, doc.declarations.get? name = some (.described d) → d.Complete

theorem Descriptor.lacks_of_lack? {d : Descriptor} {lack : Lack} (h : d.lack? = some lack) :
    d.Lacks lack := by
  obtain ⟨kind, _, provider, value, _⟩ := d
  cases kind <;> cases provider <;> cases value <;> cases h <;> exact ⟨rfl, rfl⟩

theorem Descriptor.complete_of_lack? {d : Descriptor} (h : d.lack? = none) : d.Complete := by
  obtain ⟨kind, _, provider, value, _⟩ := d
  intro lack hl
  cases lack <;> obtain ⟨rfl, rfl⟩ := hl
  any_goals simp [lack?] at h
  -- a static method that lacks its name is reported for its class if it lacks that too
  cases provider <;> simp at h

/-- Either no declaration lacks anything, or the first one that does is reported. -/
theorem Document.validate_cases (doc : Document) :
    (doc.validate = .ok () ∧ ∀ name d, (name, d) ∈ doc.declarations.entries → d.lack? = none) ∨
      ∃ name d lack, (name, d) ∈ doc.declarations.entries ∧ d.lack? = some lack ∧
        doc.validate = .error (.incomplete name lack) := by
  unfold Document.validate
  induction doc.declarations.entries with
  | nil => exact .inl ⟨rfl, by simp⟩
  | cons e es ih =>
    obtain ⟨name, d⟩ := e
    simp only [List.forM]
    cases hd : d.lack? with
    | some lack => exact .inr ⟨name, d, lack, List.mem_cons_self, hd, rfl⟩
    | none =>
      obtain ⟨passed, none_lacks⟩ | ⟨name', d', lack, he, hl, failed⟩ := ih
      · refine .inl ⟨passed, fun name' d' he => ?_⟩
        obtain ⟨rfl, rfl⟩ | he := by simpa using he
        · exact hd
        · exact none_lacks name' d' he
      · exact .inr ⟨name', d', lack, List.mem_cons_of_mem _ he, hl, failed⟩

/-! ### Declarations -/

/-- Decoding what a list was encoded to gives the list back. -/
theorem mapM_encoded {α β : Type} {encode : α → β} {decode : β → Except Mismatch α} {as : List α}
    (h : ∀ a ∈ as, decode (encode a) = .ok a) : (as.map encode).mapM decode = .ok as := by
  induction as with
  | nil => rfl
  | cons a as ih =>
    have rest := ih fun b hb => h b (List.mem_cons_of_mem _ hb)
    rw [List.map_cons, List.mapM_cons, h a List.mem_cons_self, rest]
    rfl

theorem strings_encoded (texts : List String) : strings (.array (texts.map .string)) = .ok texts :=
  mapM_encoded fun _ _ => rfl

theorem choice_kind (k : SourceKind) : choice kinds (.string k.name) = .ok k := by
  cases k <;> rfl

theorem choice_retention (r : Retention) : choice retentions (.string r.name) = .ok r := by
  cases r <;> rfl

/-- The parts of a descriptor that are written. -/
def Descriptor.members (d : Descriptor) : List (String × Json) :=
  [("type", .string d.kind.name), ("retention", .string d.retention.name)] ++
    (d.provider.map fun p => ("provider", Json.string p)).toList ++
    (d.value.map fun v => ("value", Json.string v)).toList ++
    if d.params.isEmpty then [] else [("params", .array (d.params.map .string))]

namespace Descriptor

variable (d : Descriptor)

theorem toJson_eq : d.toJson = .object d.members := rfl

theorem lookup_type : Entries.lookup "type" d.members = some (.string d.kind.name) := by
  simp [members, Entries.lookup]

theorem lookup_retention :
    Entries.lookup "retention" d.members = some (.string d.retention.name) := by
  simp [members, Entries.lookup]

theorem lookup_provider :
    Entries.lookup "provider" d.members = d.provider.map .string := by
  cases hp : d.provider <;> cases hv : d.value <;> cases hs : d.params <;>
    simp [members, Entries.lookup, hp, hv, hs]

theorem lookup_value :
    Entries.lookup "value" d.members = d.value.map .string := by
  cases hp : d.provider <;> cases hv : d.value <;> cases hs : d.params <;>
    simp [members, Entries.lookup, hp, hv, hs]

theorem lookup_params :
    Entries.lookup "params" d.members =
      if d.params.isEmpty then none else some (.array (d.params.map .string)) := by
  cases hp : d.provider <;> cases hv : d.value <;> cases hs : d.params <;>
    simp [members, Entries.lookup, hp, hv, hs]

theorem names_nodup : (d.members.map Prod.fst).Nodup := by
  cases hp : d.provider <;> cases hv : d.value <;> cases hs : d.params <;>
    simp [members, hp, hv, hs]

theorem mem_members {m : String × Json} (h : m ∈ d.members) :
    (∃ text, m.2 = .string text) ∨ m.2 = .array (d.params.map .string) := by
  simp only [members, List.mem_append, List.mem_cons, List.not_mem_nil, or_false,
    Option.mem_toList, Option.map_eq_some_iff] at h
  obtain (((rfl | rfl) | ⟨p, -, rfl⟩) | ⟨v, -, rfl⟩) | h := h
  · exact .inl ⟨_, rfl⟩
  · exact .inl ⟨_, rfl⟩
  · exact .inl ⟨_, rfl⟩
  · exact .inl ⟨_, rfl⟩
  · split at h
    · simp at h
    · rw [List.mem_singleton.1 h]
      exact .inr rfl

end Descriptor

/-- A descriptor is decoded from its parts: those that are not written are those by default. -/
theorem descriptor_members (d : Descriptor) : descriptor d.members = .ok d := by
  have params : field d.members "params" strings [] = .ok d.params := by
    rw [field, d.lookup_params]
    cases hs : d.params with
    | nil => rfl
    | cons s ss => exact strings_encoded (s :: ss)
  have provider : field d.members "provider" optionalString none = .ok d.provider := by
    rw [field, d.lookup_provider]
    cases d.provider <;> rfl
  have retention : field d.members "retention" (choice retentions) .cached = .ok d.retention := by
    rw [field, d.lookup_retention]
    exact choice_retention d.retention
  have kind : field d.members "type" (choice kinds) .provider = .ok d.kind := by
    rw [field, d.lookup_type]
    exact choice_kind d.kind
  have value : field d.members "value" optionalString none = .ok d.value := by
    rw [field, d.lookup_value]
    cases d.value <;> rfl
  rw [descriptor, params, provider, retention, kind, value]
  rfl

theorem declaration_toJson (d : Declaration) : declaration d.toJson = .ok d := by
  cases d with
  | literal text => rfl
  | described d =>
    rw [Declaration.toJson, d.toJson_eq, declaration, descriptor_members]
    rfl

theorem declareAll_encoded (entries : List (String × Declaration)) :
    declareAll (entries.map fun e => (e.1, e.2.toJson)) = .ok entries := by
  refine mapM_encoded fun e _ => ?_
  simp only [declaration_toJson]

theorem readable_toJson (depth : Nat) (d : Declaration) : Readable (depth + 2) d.toJson := by
  cases d with
  | literal text => exact .string _ text
  | described d =>
    refine .object d.names_nodup fun m hm => ?_
    obtain ⟨text, h⟩ | h := d.mem_members hm
    · rw [h]
      exact .string _ text
    · rw [h]
      refine .array fun v hv => ?_
      obtain ⟨text, -, rfl⟩ := List.mem_map.1 hv
      exact .string _ text

/-- The declarations are read back. -/
theorem readVariables_layout (declared : Table String Declaration) (level : Nat) :
    Reads readVariables
      (layout level (.object (declared.entries.map fun e => (e.1, e.2.toJson)))) declared := by
  let values := declared.entries.map fun e => (e.1, e.2.toJson)
  have names : (values.map Prod.fst).Nodup := by
    simpa [values, Function.comp_def] using declared.nodup
  have read : Reads (members (value valueDepth)) (layout level (.object values))
      (Table.ofList values) := by
    have each : ∀ m ∈ values, Reads (value valueDepth) (layout (level + 1) (id m.2)) m.2 := by
      intro m hm
      obtain ⟨e, -, rfl⟩ := List.mem_map.1 hm
      exact value_layout (readable_toJson 123 e.2) (level + 1)
    simpa using members_layout id each
  refine read.bind fun rest => ?_
  simp only [Table.entries_ofList names, values, declareAll_encoded, Table.ofList_entries]
  rfl

/-! ### Objects of two fields -/

theorem layout_pair (level : Nat) (k k' : String) (v v' : Json) :
    layout level (.object [(k, v), (k', v')]) =
      '\x7b' :: (newline (level + 1) ++ (Quote.encode k.toList ++ ':' :: ' ' ::
        (layout (level + 1) v ++ ',' :: (newline (level + 1) ++ (Quote.encode k'.toList ++
          ':' :: ' ' :: (layout (level + 1) v' ++ (newline level ++ ['\x7d']))))))) := by
  simp only [layout, Json.layoutMembers, List.append_assoc, List.cons_append, List.nil_append]

/-- A reader of objects goes through the fields with a bound on their number, and holds what it has
read of two of them.  It reads an object of these two if it takes each field, and then the end. -/
theorem reads_pair {α β γ : Type} {r : Reader γ}
    {fields : Nat → Bool → Option α → Option β → Reader γ} {level : Nat} {k k' : String}
    {v v' : Json} {a : α} {b : β} {c : γ}
    (opens : ∀ {blanks : List Char}, Blank blanks → ∀ s,
      r (blanks ++ '\x7b' :: s) = fields (s.length + 1) true none none s)
    (first : ∀ {bound : Nat} {s rest : List Char},
      nextMember true quote s = .ok (some k, ':' :: ' ' :: (layout (level + 1) v ++ rest)) →
        fields (bound + 1) true none none s = fields bound false (some a) none rest)
    (second : ∀ {bound : Nat} {s rest : List Char},
      nextMember false quote s = .ok (some k', ':' :: ' ' :: (layout (level + 1) v' ++ rest)) →
        fields (bound + 1) false (some a) none s = fields bound false (some a) (some b) rest)
    (ends : ∀ {bound : Nat} {s rest : List Char},
      nextMember false quote s = .ok (none, '\x7d' :: rest) →
        fields (bound + 1) false (some a) (some b) s = .ok (c, rest)) :
    Reads r (layout level (.object [(k, v), (k', v')])) c := by
  rw [layout_pair]
  refine ⟨⟨_, _, rfl, rfl, by decide⟩, fun hb rest => ?_⟩
  simp only [List.append_assoc, List.cons_append, List.nil_append]
  rw [opens hb]
  generalize hs : newline (level + 1) ++ _ = s
  -- the two colons alone make the text long enough for three steps
  obtain ⟨n, hn⟩ : ∃ n, s.length = n + 2 :=
    Nat.exists_eq_add_of_le' (by simp only [← hs, List.length_append, List.length_cons]; omega)
  rw [hn, ← hs, first (nextMember_first k (blank_newline _) _),
    second (nextMember_next k' (blank_newline _) _),
    ends (nextMember_end false quote (blank_newline _) rest)]

/-! ### Renames -/

theorem readRenameFields_method {bound : Nat} {first : Bool} {real : Option String}
    {s rest : List Char} {logical : String}
    (h : nextMember first quote s =
      .ok (some "method", ':' :: ' ' :: (Quote.encode logical.toList ++ rest))) :
    readRenameFields (bound + 1) first none real s =
      readRenameFields bound false (some logical) real rest := by
  refine (bind_of_ok h).trans ?_
  simp only [true_or, if_true, Option.isSome_none, Bool.false_eq_true, if_false]
  refine (bind_of_ok (colon_here _)).trans ?_
  exact bind_of_ok ((reads_string logical).reads blank_space rest)

theorem readRenameFields_original {bound : Nat} {first : Bool} {logical : Option String}
    {s rest : List Char} {real : String}
    (h : nextMember first quote s =
      .ok (some "original", ':' :: ' ' :: (Quote.encode real.toList ++ rest))) :
    readRenameFields (bound + 1) first logical none s =
      readRenameFields bound false logical (some real) rest := by
  have other : ¬("original" = "method" ∨ "original" = "logical") := by decide
  refine (bind_of_ok h).trans ?_
  simp only [other, true_or, if_true, Option.isSome_none, Bool.false_eq_true, if_false]
  refine (bind_of_ok (colon_here _)).trans ?_
  exact bind_of_ok ((reads_string real).reads blank_space rest)

theorem readRenameFields_end {bound : Nat} {first : Bool} {logical real : String}
    {s rest : List Char} (h : nextMember first quote s = .ok (none, '\x7d' :: rest)) :
    readRenameFields (bound + 1) first (some logical) (some real) s =
      .ok (⟨logical, real⟩, rest) := by
  refine (bind_of_ok h).trans ?_
  exact bind_of_ok (endMembers_here rest)

/-- A rename is read back. -/
theorem readRename_layout (r : Rename) (level : Nat) :
    Reads readRename (layout level r.toJson) r := by
  refine reads_pair (fun hb s => ?_) readRenameFields_method readRenameFields_original
    readRenameFields_end
  refine (bind_of_ok (peek_blank hb rfl _)).trans ?_
  refine (bind_of_ok (advance_here _ _)).trans ?_
  exact bind_of_ok (get_here _)

/-- The renames are read back. -/
theorem readRenames_layout (renames : Table String (List Rename)) (level : Nat) :
    Reads readRenames
      (layout level (.object (renames.entries.map fun e => (e.1, .array (e.2.map Rename.toJson)))))
      renames := by
  have each : ∀ m ∈ renames.entries, Reads (items readRename)
      (layout (level + 1) (.array (m.2.map Rename.toJson))) m.2 :=
    fun m _ => items_layout Rename.toJson fun r _ => readRename_layout r _
  have read := members_layout (fun rs : List Rename => .array (rs.map Rename.toJson)) each
  rw [Table.ofList_entries] at read
  exact read

/-! ### Documents -/

theorem readFields_variables {bound : Nat} {first : Bool}
    {renames : Option (Table String (List Rename))} {s t rest : List Char}
    {declared : Table String Declaration}
    (h : nextMember first quote s = .ok (some "variables", ':' :: ' ' :: (t ++ rest)))
    (ht : Reads readVariables t declared) :
    readFields (bound + 1) first none renames s =
      readFields bound false (some declared) renames rest := by
  refine (bind_of_ok h).trans ?_
  simp only [if_true, Option.isSome_none, Bool.false_eq_true, if_false]
  refine (bind_of_ok (colon_here _)).trans ?_
  exact bind_of_ok (ht.reads blank_space rest)

theorem readFields_replacements {bound : Nat} {first : Bool}
    {declared : Option (Table String Declaration)} {s t rest : List Char}
    {renames : Table String (List Rename)}
    (h : nextMember first quote s = .ok (some "replacements", ':' :: ' ' :: (t ++ rest)))
    (ht : Reads readRenames t renames) :
    readFields (bound + 1) first declared none s =
      readFields bound false declared (some renames) rest := by
  have other : "replacements" ≠ "variables" := by decide
  refine (bind_of_ok h).trans ?_
  simp only [other, if_true, Option.isSome_none, Bool.false_eq_true, if_false]
  refine (bind_of_ok (colon_here _)).trans ?_
  exact bind_of_ok (ht.reads blank_space rest)

theorem readFields_end {bound : Nat} {first : Bool} {declared : Table String Declaration}
    {renames : Table String (List Rename)} {s rest : List Char}
    (h : nextMember first quote s = .ok (none, '\x7d' :: rest)) :
    readFields (bound + 1) first (some declared) (some renames) s =
      .ok (⟨declared, renames⟩, rest) := by
  refine (bind_of_ok h).trans ?_
  exact bind_of_ok (endMembers_here rest)

/-- A document is read back. -/
theorem readDocument_layout (doc : Document) :
    Reads readDocument (layout 0 doc.toJson) doc := by
  refine reads_pair (fun hb s => ?_)
    (fun h => readFields_variables h (readVariables_layout doc.declarations 1))
    (fun h => readFields_replacements h (readRenames_layout doc.renames 1)) readFields_end
  refine (bind_of_ok (peek_blank hb rfl _)).trans ?_
  refine (bind_of_ok (advance_here _ _)).trans ?_
  exact bind_of_ok (get_here _)

/-- **Documents survive writing and reading.**  A document whose descriptors are all complete is
read back from its text.  From the text of any other document nothing is loaded: a variable is
reported whose descriptor is not complete, together with a part that it lacks. -/
theorem Document.load_text (doc : Document) :
    (doc.Complete → Document.load doc.text = .ok doc) ∧
      (¬doc.Complete → ∃ name d lack, doc.declarations.get? name = some (.described d) ∧
        d.Lacks lack ∧ Document.load doc.text = .error (.incomplete name lack)) := by
  have read : readDocument.run doc.text = .ok doc := (readDocument_layout doc).run
  have loaded : Document.load doc.text = doc.validate.bind fun _ => .ok doc := by
    rw [Document.load, read]
    rfl
  obtain ⟨passed, none_lacks⟩ | ⟨name, d, lack, he, hl, failed⟩ := doc.validate_cases
  · have complete : doc.Complete := fun name d hd =>
      Descriptor.complete_of_lack? (none_lacks name _ (Table.mem_of_get? hd))
    refine ⟨fun _ => ?_, fun h => absurd complete h⟩
    rw [loaded, passed]
    rfl
  · have declared := Table.get?_of_mem he
    cases d with
    | literal text => simp [Declaration.lack?] at hl
    | described d =>
      have lacks : d.Lacks lack := Descriptor.lacks_of_lack? hl
      refine ⟨fun complete => absurd lacks (complete name d declared lack), fun _ => ?_⟩
      refine ⟨name, d, lack, declared, lacks, ?_⟩
      rw [loaded, failed]
      rfl

/-- A variable whose name holds a quote, a backslash and a line break, declared by this
descriptor. -/
def oddlyNamed (d : Descriptor) : Document :=
  (∅ : Document).declare "a\"b\\c\n" (.described d)

theorem oddlyNamed_get? {d d' : Descriptor} {name : String}
    (h : (oddlyNamed d).declarations.get? name = some (.described d')) :
    name = "a\"b\\c\n" ∧ d' = d := by
  rw [oddlyNamed, Document.declare, Table.get?_insert] at h
  split at h
  · simp_all
  · cases h

/-- The document is read back if the static method is named, and else the variable is reported. -/
theorem oddly_named_variable_survives :
    Document.load (oddlyNamed ⟨.static, .lazy, some "Clock", some "now", []⟩).text =
        .ok (oddlyNamed ⟨.static, .lazy, some "Clock", some "now", []⟩) ∧
      Document.load (oddlyNamed ⟨.static, .lazy, some "Clock", none, []⟩).text =
        .error (.incomplete "a\"b\\c\n" .staticMethod) := by
  constructor
  · refine (Document.load_text _).1 fun name d hd lack lacks => ?_
    obtain ⟨-, rfl⟩ := oddlyNamed_get? hd
    cases lack <;> simp [Descriptor.Lacks] at lacks
  · have lacking : ¬(oddlyNamed ⟨.static, .lazy, some "Clock", none, []⟩).Complete :=
      fun complete => complete _ _ (Table.get?_insert_self _ _ _) .staticMethod ⟨rfl, rfl⟩
    obtain ⟨name, d, lack, hd, lacks, reported⟩ := (Document.load_text _).2 lacking
    obtain ⟨rfl, rfl⟩ := oddlyNamed_get? hd
    cases lack <;> simp [Descriptor.Lacks] at lacks
    exact reported

end LateBinding.Mapping
