import LateBinding.Proofs.Apart
import LateBinding.Proofs.Evaluation.Returns
import LateBinding.Proofs.TypeCache.Agreement

/-!
# Coherence of the cache of types

At every moment of a run the scopes define what they came to define last, and the cache of every
resolver agrees with what happened (`TypeCache.Coherent`).  An inquiry preserves this
(`Coherent.perform`), and so does a run (`Coherent.course`).

* **`TypeCache.lookups_are_coherent`** : in every run there is one entry for each class that was
  reached, and every lookup by name is justified by what came before it.
-/

namespace LateBinding.TypeCache

variable {k : Ledger} {w w' : World} {r : Resolver}

/-! ### The invariant -/

/-- What a resolver remembers is what happened. -/
structure Follows (k : Ledger) (w : World) (r : Resolver) : Prop where
  /-- Entries are told apart by their identities. -/
  apart : Apart TypeEntry.id (handed r k.past) w.next
  /-- Entries are those of classes that were made. -/
  classes : ∀ e ∈ handed r k.past, e.cls ∈ k.classes
  /-- The cache agrees with the history. -/
  agrees : Agrees r k.past (w.stateOf r).types

/-- An event is as it should be, given what came before. -/
def Event.Sound (past : List Event) : Event → Prop
  | .defined _ _ => True
  | .reached _ c e => e.cls = c
  | .sought r name scope found => Justified r name scope found past

/-- The world is as the history says, and so was it at each moment before. -/
structure Coherent (k : Ledger) (w : World) : Prop where
  /-- Scopes are told apart by their identities. -/
  scopes : Apart Scope.id k.scopes w.next
  /-- Classes are told apart by their identities. -/
  classes : Apart Class.id k.classes w.next
  /-- Resolvers are told apart by their identities. -/
  resolvers : Apart Resolver.id k.resolvers w.next
  /-- Resolvers look types up in scopes that were made. -/
  defaults : ∀ r ∈ k.resolvers, r.defaultScope ∈ k.scopes
  /-- Scopes define what they came to define last. -/
  definitions : ∀ scope name, (w.classesOf scope).get? name = latest scope name k.past
  /-- What was defined was made. -/
  defined : ∀ scope name c, latest scope name k.past = some c → c ∈ k.classes
  /-- Resolvers remember what happened, those that are still to be made included. -/
  follows : ∀ r, r ∈ k.resolvers ∨ w.next ≤ r.id → Follows k w r
  /-- What happened was as it should be. -/
  sound : ∀ later x earlier, k.past = later ++ x :: earlier → x.Sound earlier

/-- Between two worlds only the cache of one resolver changed, as far as definitions and caches
go. -/
structure Only (r : Resolver) (w w' : World) : Prop where
  /-- Identities that were handed out are not handed out again. -/
  next : w.next ≤ w'.next
  /-- The scopes define what they did. -/
  definitions : w'.definitions = w.definitions
  /-- Other resolvers know the types that they knew. -/
  types : ∀ r', r.id ≠ r'.id → (w'.stateOf r').types = (w.stateOf r').types

theorem Only.refl (r : Resolver) (w : World) : Only r w w := ⟨Nat.le_refl _, rfl, fun _ _ => rfl⟩

theorem Only.trans {w'' : World} (h : Only r w w') (h' : Only r w' w'') : Only r w w'' where
  next := Nat.le_trans h.next h'.next
  definitions := h'.definitions.trans h.definitions
  types r' hr := (h'.types r' hr).trans (h.types r' hr)

theorem Only.withTypes (w : World) (r : Resolver) (t : TypeCache) : Only r w (w.withTypes r t) where
  next := Nat.le_refl _
  definitions := rfl
  types r' hr := by rw [World.types_withTypes, if_neg hr]

/-- One more sound event leaves all of them sound. -/
theorem sound_cons {past : List Event} {x : Event}
    (h : ∀ later y earlier, past = later ++ y :: earlier → y.Sound earlier) (hx : x.Sound past) :
    ∀ later y earlier, x :: past = later ++ y :: earlier → y.Sound earlier := by
  intro later y earlier hy
  rcases List.cons_eq_append_iff.1 hy with ⟨-, hy⟩ | ⟨later', -, hy⟩
  · cases hy
    exact hx
  · exact h later' y earlier hy

/-- A resolver remembers nothing where nothing happened. -/
theorem Agrees.nil (r : Resolver) : Agrees r [] default where
  entries i e := by
    constructor
    · intro h
      cases h
    · rintro ⟨h, -⟩
      cases h
  known name scope := by
    unfold TypeCache.known
    split <;> rfl

namespace Coherent

theorem empty : Coherent ∅ World.empty where
  scopes := .nil
  classes := .nil
  resolvers := .nil
  defaults _ h := by cases h
  definitions scope name := by
    have none : World.empty.classesOf scope = ∅ := by simp [World.classesOf, World.empty]
    rw [none, Table.get?_empty]
    rfl
  defined _ _ _ h := by cases h
  follows r _ := by
    have state : World.empty.stateOf r = default := by simp [World.stateOf, World.empty]
    exact ⟨.nil, fun _ h => (List.not_mem_nil h).elim, state ▸ .nil r⟩
  sound later x earlier h := by cases later <;> cases h

/-- What leaves the definitions and the caches alone preserves the invariant. -/
theorem of_le (hk : Coherent k w) (next : w.next ≤ w'.next)
    (definitions : w'.definitions = w.definitions)
    (types : ∀ r, (w'.stateOf r).types = (w.stateOf r).types) : Coherent k w' where
  scopes := hk.scopes.mono next
  classes := hk.classes.mono next
  resolvers := hk.resolvers.mono next
  defaults := hk.defaults
  definitions scope name := by
    have same : w'.classesOf scope = w.classesOf scope := by simp only [World.classesOf, definitions]
    rw [same, hk.definitions]
  defined := hk.defined
  follows r hr := by
    have f := hk.follows r (hr.imp_right (Nat.le_trans next))
    exact ⟨f.apart.mono next, f.classes, types r ▸ f.agrees⟩
  sound := hk.sound

/-- A scope is made. -/
theorem scope (hk : Coherent k w) {s : Scope} (hs : s.id = w.next) :
    Coherent { k with scopes := k.scopes ++ [s] } { w with next := w.next + 1 } := by
  have hk' : Coherent k { w with next := w.next + 1 } :=
    hk.of_le (Nat.le_succ _) rfl fun _ => rfl
  exact { hk' with
    scopes := hk.scopes.append hs
    defaults := fun r hr => List.mem_append_left _ (hk.defaults r hr)
    follows := fun r hr => { hk'.follows r hr with } }

/-- A class is made. -/
theorem cls (hk : Coherent k w) {c : Class Value} (hc : c.id = w.next) (s : Store (Table String Value)) :
    Coherent { k with classes := k.classes ++ [c] } { w with next := w.next + 1, statics := s } := by
  have hk' : Coherent k { w with next := w.next + 1, statics := s } :=
    hk.of_le (Nat.le_succ _) rfl fun _ => rfl
  exact { hk' with
    classes := hk.classes.append hc
    defined := fun scope name c h => List.mem_append_left _ (hk.defined scope name c h)
    follows := fun r hr => { hk'.follows r hr with
      classes := fun e he => List.mem_append_left _ ((hk'.follows r hr).classes e he) } }

/-- A scope comes to define a class. -/
theorem define (hk : Coherent k w) {c : Class Value} (hc : c ∈ k.classes) (s : Scope) :
    Coherent (k.record (.defined s c))
      { w with definitions := w.definitions.insert s.id ((w.classesOf s.id).insert c.name c) } where
  scopes := hk.scopes
  classes := hk.classes
  resolvers := hk.resolvers
  defaults := hk.defaults
  definitions scope name := by
    rw [World.classesOf, Store.get?_insert, Ledger.record, latest]
    by_cases hs : s.id = scope
    · rw [if_pos hs, Option.getD_some, Table.get?_insert, hk.definitions, hs]
      simp
    · simpa [hs, World.classesOf] using hk.definitions scope name
  defined scope name c' h := by
    simp only [Ledger.record, latest] at h
    split at h
    · cases h
      exact hc
    · exact hk.defined scope name c' h
  follows r hr := by
    have f := hk.follows r hr
    exact ⟨f.apart, f.classes, ⟨f.agrees.entries, f.agrees.known⟩⟩
  sound := sound_cons hk.sound trivial

/-- A resolver is made. -/
theorem resolver (hk : Coherent k w) {r : Resolver} (hr : r.id = w.next)
    (hs : r.defaultScope ∈ k.scopes) :
    Coherent { k with resolvers := k.resolvers ++ [r] } { w with next := w.next + 1 } := by
  have hk' : Coherent k { w with next := w.next + 1 } :=
    hk.of_le (Nat.le_succ _) rfl fun _ => rfl
  refine { hk' with
    resolvers := hk.resolvers.append hr
    defaults := fun r' hr' => ?_
    follows := fun r' hr' => ?_ }
  · rcases List.mem_append.1 hr' with hr' | hr'
    · exact hk.defaults r' hr'
    · rw [List.mem_singleton.1 hr']
      exact hs
  · -- nothing was remembered for the identity of the new resolver
    have old : r' ∈ k.resolvers ∨ w.next ≤ r'.id := by
      rcases hr' with hr' | hr'
      · rcases List.mem_append.1 hr' with hr' | hr'
        · exact .inl hr'
        · rw [List.mem_singleton.1 hr']
          exact .inr (Nat.le_of_eq hr.symm)
      · exact .inr (Nat.le_of_succ_le hr')
    have f := hk.follows r' old
    exact ⟨f.apart.mono (Nat.le_succ _), f.classes, ⟨f.agrees.entries, f.agrees.known⟩⟩

/-! ### Lookups -/

/-- What a resolver was asked is recorded. -/
theorem record (hk : Coherent k w) (hr : r ∈ k.resolvers) {x : Event} (hx : x.IsBy r)
    (only : Only r w w') (own : Follows (k.record x) w' r) (sound : x.Sound k.past) :
    Coherent (k.record x) w' where
  scopes := hk.scopes.mono only.next
  classes := hk.classes.mono only.next
  resolvers := hk.resolvers.mono only.next
  defaults := hk.defaults
  definitions scope name := by
    have same : w'.classesOf scope = w.classesOf scope := by
      simp only [World.classesOf, only.definitions]
    rw [same, hk.definitions, Ledger.record, latest_cons_of_isBy hx]
  defined scope name c h := by
    rw [Ledger.record, latest_cons_of_isBy hx] at h
    exact hk.defined scope name c h
  follows r' hr' := by
    by_cases hid : r.id = r'.id
    · -- a resolver that is still to be made has another identity
      have made : r' ∈ k.resolvers := by
        refine hr'.resolve_right fun hn => ?_
        have below := hk.resolvers.below r hr
        exact absurd (hid ▸ Nat.le_trans only.next hn) (Nat.not_le_of_lt below)
      exact hk.resolvers.inj r hr r' made hid ▸ own
    · have f := hk.follows r' (hr'.imp_right (Nat.le_trans only.next))
      have past : handed r' (k.record x).past = handed r' k.past := handed_cons_of_isBy hx hid
      refine ⟨past ▸ f.apart.mono only.next, past ▸ f.classes, ⟨fun i e => ?_, fun name scope => ?_⟩⟩
      · rw [only.types r' hid, past]
        exact f.agrees.entries i e
      · rw [only.types r' hid, f.agrees.known]
        exact (firstFound_cons_of_isBy hx hid name scope).symm
  sound := sound_cons hk.sound sound

/-- A resolver is asked for the entry of a class. -/
theorem entry (hk : Coherent k w) (hr : r ∈ k.resolvers) {c : Class Value} (hc : c ∈ k.classes)
    {e : TypeEntry Value} (h : r.entry c w = .done e w') :
    e.cls = c ∧ Only r w w' ∧ Follows (k.record (.reached r c e)) w' r := by
  have f := hk.follows r (.inl hr)
  rw [Resolver.entry_eq] at h
  cases he : (w.stateOf r).types.entries.get? c.id with
  | some e' =>
    rw [he] at h
    cases h
    obtain ⟨mem, hid⟩ := (f.agrees.entries c.id e).1 he
    have cls : e.cls = c := hk.classes.inj _ (f.classes e mem) c hc hid
    refine ⟨cls, .refl r w, ⟨f.apart.of_subset ?_, ?_, f.agrees.hit (hid ▸ he)⟩⟩
    · intro e' he'
      rcases List.mem_cons.1 (handed_reached c e ▸ he') with rfl | he'
      · exact mem
      · exact he'
    · intro e' he'
      rcases List.mem_cons.1 (handed_reached c e ▸ he') with rfl | he'
      · exact f.classes _ mem
      · exact f.classes e' he'
  | none =>
    rw [he] at h
    cases h
    refine ⟨rfl, ⟨Nat.le_succ _, rfl, fun r' hr' => ?_⟩, ⟨?_, ?_, ?_⟩⟩
    · exact (Only.withTypes { w with next := w.next + 1 } r _).types r' hr'
    · rw [Ledger.record, handed_reached]
      exact f.apart.cons rfl
    · intro e' he'
      rcases List.mem_cons.1 (handed_reached c _ ▸ he') with rfl | he'
      · exact hc
      · exact f.classes e' he'
    · rw [World.types_withTypes, if_pos rfl]
      exact f.agrees.miss he

/-- A resolver is asked for a class by name. -/
theorem classNamedIn (hk : Coherent k w) (hr : r ∈ k.resolvers) {s : Scope} (hs : s ∈ k.scopes)
    {name : String} {found : Option (TypeEntry Value)}
    (h : r.classNamedIn name s w = .done found w') :
    Coherent (k.record (.sought r name s found)) w' := by
  have f := hk.follows r (.inl hr)
  have means : w.find? s name = meaning k.past name s := find?_eq_meaning hk.definitions s name
  rw [Resolver.classNamedIn_eq r w name fun hid => hk.scopes.inj s hs _ (hk.defaults r hr) hid] at h
  cases hknown : (w.stateOf r).types.known r name s.id with
  | some e =>
    rw [hknown] at h
    cases h
    have first : firstFound r name s.id k.past = some e := (f.agrees.known name s.id).symm.trans hknown
    have mem : ∀ e' ∈ handed r (k.record (.sought r name s (some e))).past,
        e' ∈ handed r k.past := by
      intro e' he'
      rcases List.mem_cons.1 (handed_sought_some name s e ▸ he') with rfl | he'
      · exact mem_handed_of_firstFound first
      · exact he'
    refine hk.record hr rfl (.refl r w) ⟨f.apart.of_subset mem, fun e' he' => f.classes e' (mem e' he'),
      f.agrees.again hknown⟩ ⟨fun e' he' => ?_, fun hn => ?_⟩
    · rw [first] at he'
      exact he'
    · rw [first] at hn
      cases hn
  | none =>
    have first : firstFound r name s.id k.past = none := (f.agrees.known name s.id).symm.trans hknown
    rw [hknown] at h
    cases hfind : w.find? s name with
    | none =>
      rw [hfind] at h
      cases h
      have same : handed r (k.record (.sought r name s none)).past = handed r k.past :=
        handed_sought_none name s
      refine hk.record hr rfl (.refl r w) ⟨same ▸ f.apart, same ▸ f.classes,
        f.agrees.missing name s⟩ ⟨fun e' he' => ?_, fun _ => ?_⟩
      · rw [first] at he'
        cases he'
      · rw [← means, hfind]
        rfl
    | some c =>
      rw [hfind] at h
      obtain ⟨e, w₁, he, h⟩ := Act.bind_eq_done.1 h
      cases h
      obtain ⟨scope, hscope⟩ := exists_latest_of_meaning (means.symm.trans hfind)
      obtain ⟨cls, only, f₁⟩ := hk.entry hr (hk.defined scope name c hscope) he
      have next : w₁.next ≤ (w₁.withTypes r ((w₁.stateOf r).types.learn r name s.id e)).next :=
        Nat.le_refl _
      have own : Follows (k.record (.sought r name s (some e)))
          (w₁.withTypes r ((w₁.stateOf r).types.learn r name s.id e)) r := by
        have same : handed r (k.record (.sought r name s (some e))).past =
            handed r (k.record (.reached r c e)).past := by
          simp [Ledger.record]
        refine ⟨same ▸ f₁.apart.mono next, same ▸ f₁.classes, ?_⟩
        rw [World.types_withTypes, if_pos rfl]
        exact f₁.agrees.found first
      refine hk.record hr rfl (only.trans (.withTypes w₁ r _)) own ⟨fun e' he' => ?_, fun _ => ?_⟩
      · rw [first] at he'
        cases he'
      · rw [← means, hfind, Option.map_some, cls]

/-! ### Runs -/

/-- An inquiry preserves the invariant. -/
theorem perform (hk : Coherent k w) (q : Inquiry) {k' : Ledger}
    (hq : TypeCache.perform k q w = .done k' w') : Coherent k' w' := by
  cases q with
  | scope name parent =>
    cases hq
    refine hk.scope ?_
    cases parent.bind fun i => k.scopes[i]? <;> rfl
  | define plan scope =>
    rw [TypeCache.perform] at hq
    cases hs : k.scopes[scope]? with
    | some s =>
      rw [hs] at hq
      cases hq
      exact (hk.cls rfl _).define (by simp) s
    | none =>
      rw [hs] at hq
      cases hq
      exact hk
  | cls plan =>
    cases hq
    exact hk.cls rfl _
  | resolver document scope =>
    rw [TypeCache.perform] at hq
    cases hs : k.scopes[scope]? with
    | some s =>
      rw [hs] at hq
      obtain ⟨x, w₁, hx, hq⟩ := Act.bind_eq_done.1 hq
      unfold Act.newResolver at hx
      cases hv : document.validate with
      | error f =>
        rw [hv] at hx
        cases hx
        cases hq
        exact hk
      | ok =>
        rw [hv] at hx
        cases hx
        cases hq
        exact hk.resolver rfl (List.mem_of_getElem? hs)
    | none =>
      rw [hs] at hq
      cases hq
      exact hk
  | entry resolver cls =>
    rw [TypeCache.perform] at hq
    cases hr : k.resolvers[resolver]? with
    | none =>
      rw [hr] at hq
      cases hq
      exact hk
    | some r =>
      cases hc : k.classes[cls]? with
      | none =>
        rw [hr, hc] at hq
        cases hq
        exact hk
      | some c =>
        rw [hr, hc] at hq
        obtain ⟨e, w₁, he, hq⟩ := Act.bind_eq_done.1 hq
        cases hq
        have made : r ∈ k.resolvers := List.mem_of_getElem? hr
        obtain ⟨hcls, only, own⟩ := hk.entry made (List.mem_of_getElem? hc) he
        exact hk.record made rfl only own hcls
  | classNamed resolver name =>
    rw [TypeCache.perform] at hq
    cases hr : k.resolvers[resolver]? with
    | none =>
      rw [hr] at hq
      cases hq
      exact hk
    | some r =>
      rw [hr] at hq
      obtain ⟨found, w₁, hf, hq⟩ := Act.bind_eq_done.1 hq
      cases hq
      have made : r ∈ k.resolvers := List.mem_of_getElem? hr
      rw [← Resolver.classNamedIn_defaultScope] at hf
      exact hk.classNamedIn made (hk.defaults r made) hf
  | classNamedIn resolver name scope =>
    rw [TypeCache.perform] at hq
    cases hr : k.resolvers[resolver]? with
    | none =>
      rw [hr] at hq
      cases hq
      exact hk
    | some r =>
      cases hs : k.scopes[scope]? with
      | none =>
        rw [hr, hs] at hq
        cases hq
        exact hk
      | some s =>
        rw [hr, hs] at hq
        obtain ⟨found, w₁, hf, hq⟩ := Act.bind_eq_done.1 hq
        cases hq
        exact hk.classNamedIn (List.mem_of_getElem? hr) (List.mem_of_getElem? hs) hf
  | aside a =>
    cases hq
    exact hk.of_le (a.next w) (a.definitions w) (a.types w)

/-- Inquiries preserve the invariant. -/
theorem course (hk : Coherent k w) (qs : List Inquiry) {k' : Ledger}
    (hqs : TypeCache.course qs k w = .done k' w') : Coherent k' w' := by
  induction qs generalizing k w with
  | nil =>
    cases hqs
    exact hk
  | cons q qs ih =>
    obtain ⟨k₁, w₁, hq, hqs⟩ := Act.bind_eq_done.1 hqs
    exact ih (hk.perform q hq) hqs

end Coherent

theorem returns_perform (k : Ledger) (q : Inquiry) : (perform k q).Returns := by
  cases q with
  | scope name parent =>
    exact .bind (.bind .fresh fun _ => .pure _) fun _ => .pure _
  | define plan scope =>
    unfold perform
    dsimp only
    split
    · refine .bind (.bind ?_ fun _ => .bind (.update _) fun _ => .pure _) fun _ => .pure _
      exact .bind .fresh fun _ => .bind (.update _) fun _ => .pure _
    · exact .pure _
  | cls plan =>
    exact .bind (.bind .fresh fun _ => .bind (.update _) fun _ => .pure _) fun _ => .pure _
  | resolver document scope =>
    unfold perform
    dsimp only
    split
    · have made (s : Scope) : Attempt.Returns (Act.newResolver document s) := by
        unfold Act.newResolver
        split
        · exact .throw _
        · exact .bind (.liftM .fresh) fun _ => .pure _
      refine .bind (made _) fun x => ?_
      cases x <;> exact .pure _
    · exact .pure _
  | entry resolver cls =>
    unfold perform
    dsimp only
    split
    · exact .bind (Resolver.returns_entry _ _) fun _ => .pure _
    · exact .pure _
  | classNamed resolver name =>
    unfold perform
    dsimp only
    split
    · exact .bind (Resolver.returns_classNamed _ _) fun _ => .pure _
    · exact .pure _
  | classNamedIn resolver name scope =>
    unfold perform
    dsimp only
    split
    · exact .bind (Resolver.returns_classNamedIn _ _ _) fun _ => .pure _
    · exact .pure _
  | aside a => exact .bind (.update _) fun _ => .pure _

theorem returns_course (qs : List Inquiry) (k : Ledger) : (course qs k).Returns := by
  induction qs generalizing k with
  | nil => exact .pure k
  | cons q qs ih => exact (returns_perform k q).bind ih

/-- **The cache of types is coherent over every run.**  Every run of inquiries comes to an end.  In
it, asking for the entry of a class gives an entry of this class, and a lookup by name finds what it
found first, or if it never found anything, the entry of what the name means at that moment.  Of
each class that a resolver reached there is one entry, and their number is that of these classes.
Names mean what scopes find, and the default scope may be given or left out. -/
theorem lookups_are_coherent (qs : List Inquiry) : ∃ k w, course qs ∅ World.empty = .done k w ∧
    (∀ later x earlier, k.past = later ++ x :: earlier → x.Sound earlier) ∧
    (∀ r ∈ k.resolvers,
      (∀ e ∈ handed r k.past, ∀ e' ∈ handed r k.past,
        (e.cls.id = e'.cls.id → e = e') ∧ (e.id = e'.id → e = e')) ∧
      r.reachedClasses w = .done (classesReached r k.past).card w) ∧
    (∀ scope name, w.find? scope name = meaning k.past name scope) ∧
    ∀ (r : Resolver) (name : String), r.classNamedIn name r.defaultScope = r.classNamed name := by
  obtain ⟨k, w, hqs⟩ := returns_course qs ∅ World.empty
  have hk : Coherent k w := Coherent.empty.course qs hqs
  refine ⟨k, w, hqs, hk.sound, fun r hr => ⟨fun e he e' he' => ?_, ?_⟩,
    find?_eq_meaning hk.definitions, Resolver.classNamedIn_defaultScope⟩
  · have f := hk.follows r (.inl hr)
    exact ⟨f.agrees.unique he he', f.apart.inj e he e' he'⟩
  · rw [← (hk.follows r (.inl hr)).agrees.size_entries]
    rfl

/-- A class with a name and nothing else. -/
def bare (name : String) : ClassPlan Value := ⟨name, .concrete, none, [], [], [], []⟩

/-- What was found in a run by name, most recent first: the identities of the classes. -/
def foundIn (qs : List Inquiry) : List (Option Identity) :=
  match course qs ∅ World.empty with
  | .done k _ => k.past.filterMap fun
    | .sought _ _ _ found => some (found.map fun e => e.cls.id)
    | _ => none
  | _ => []

/-- A name is missing at first, then found in the parent, and still means that class after the
scope itself came to define another one. -/
example : foundIn [.scope "root" none, .scope "app" (some 0), .resolver ∅ 1,
    .classNamed 0 "pkg.A", .define (bare "pkg.A") 0, .classNamed 0 "pkg.A",
    .define (bare "pkg.A") 1, .classNamedIn 0 "pkg.A" 1, .classNamedIn 0 "pkg.A" 0] =
    [some 3, some 3, some 3, none] := by decide +kernel

end LateBinding.TypeCache
