import LateBinding.Proofs.Template.Expansion
import LateBinding.Proofs.Use

/-!
# Resolution of names from literal variables

What names resolve to if a document declares literals only and no provider is registered, at any
time while the resolver is in use.

* `Resolver.substitution_is_expansion` : **substitution is macro expansion**, as long as values
  are clean texts and references do not go too deep;
* `Resolver.member_is_first_renamed` : **a member resolves to the real name of the first pass that
  is renamed**, or else to what substitution gives.
-/

namespace LateBinding

/-! ### Expansion by the document -/

namespace Mapping.Document

open Template

variable {doc : Document} (hclean : ∀ name text, doc.literal? name = some text → Clean text)

include hclean

/-- A clean template resolves to its full expansion if no chain of references has more names than
there are passes. -/
theorem resolved_expands
    (hchains : ∀ l : List String, l.IsChain (Refers doc.literal?) → l.length ≤ maxPasses)
    {template : String} (ht : Clean template) :
    hasTokens (doc.resolved template) = false ∧
      Expands doc.literal? template.toList (doc.resolved template).toList := by
  obtain ⟨hnames, hexpands⟩ := expands_iterate hclean ht.neat
    fun n (_ : n ∈ names template.toList) l hl => hchains (String.ofList n :: l) hl
  rw [← toList_iterate_once] at hnames hexpands
  refine ⟨?_, hexpands⟩
  rw [hasTokens_eq_false_iff]
  exact hnames

theorem resolved_append {template : String} (ht : Clean template) (more : String) :
    doc.resolved (template ++ more) = doc.resolved template ++ doc.resolved more := by
  simp only [← String.toList_inj, resolved, toList_iterate_once, String.toList_append]
  exact iterate_onceChars_append hclean _ ht.neat _

end Mapping.Document

namespace Resolver

variable {r : Resolver} {w : World}

/-! ### Substitution -/

/-- Substitution gives what the template resolves to by the document, at any time. -/
theorem Used.substitute (hdoc : r.document.Literal) (hw : r.Used w) (n : Nat) (template : String) :
    ∃ w', r.substitute (.level (n + 1)) template w = .done (r.document.resolved template) w' := by
  obtain ⟨w', hrun, -⟩ :=
    faithful_gives_substitute (findsLiterals_level hdoc n) template w (hw.faithful hdoc)
  exact ⟨w', hrun⟩

open Template in
/-- Substitution of a clean template leaves no token and is its full expansion, if values are
clean and chains of references, of which none can then come back to a name, are no longer than
there are passes.  So templates are substituted part by part. -/
theorem substitution_is_expansion (hdoc : r.document.Literal)
    (hclean : ∀ name text, r.document.literal? name = some text → Clean text)
    (hchains : ∀ l : List String, l.IsChain (Refers r.document.literal?) → l.length ≤ maxPasses)
    (hw : r.Used w) (n : Nat) :
    (∀ template, Clean template → ∃ u w',
      r.substitute (.level (n + 1)) template w = .done u w' ∧ hasTokens u = false ∧
        ∀ e, Expands r.document.literal? template.toList e ↔ e = u.toList) ∧
    ∀ template more, Clean template → Clean more → ∃ u u' w₁ w₂ w₃,
      r.substitute (.level (n + 1)) template w = .done u w₁ ∧
        r.substitute (.level (n + 1)) more w = .done u' w₂ ∧
        r.substitute (.level (n + 1)) (template ++ more) w = .done (u ++ u') w₃ := by
  constructor
  · intro template ht
    obtain ⟨w', hrun⟩ := hw.substitute hdoc n template
    obtain ⟨htokens, hexpands⟩ := Mapping.Document.resolved_expands hclean hchains ht
    refine ⟨_, w', hrun, htokens, fun e => ⟨fun he => he.unique hexpands, ?_⟩⟩
    rintro rfl
    exact hexpands
  · intro template more ht _
    obtain ⟨w₁, h₁⟩ := hw.substitute hdoc n template
    obtain ⟨w₂, h₂⟩ := hw.substitute hdoc n more
    obtain ⟨w₃, h₃⟩ := hw.substitute hdoc n (template ++ more)
    rw [Mapping.Document.resolved_append hclean ht] at h₃
    exact ⟨_, _, w₁, w₂, w₃, h₁, h₂, h₃⟩

namespace Rivers

/-- Kinds of fish are named by their rank. -/
def kinds : Mapping.Document :=
  ((((Mapping.Document.empty.declare "kind" (.literal "Sal@rank@")).declare "rank"
    (.literal "mon")).rename "app.@kind@" "swim" "drift").rename "app.@kind@" "swim" "leap").rename
      "app.Salmon" "hide" "dig"

/-- A resolver for these kinds. -/
def fish : Resolver := ⟨0, kinds, .root 1 "main"⟩

theorem unused : fish.Used .empty := .new rfl

theorem declared {name : String} {d : Mapping.Declaration}
    (h : kinds.declarations.get? name = some d) :
    name = "kind" ∧ d = .literal "Sal@rank@" ∨ name = "rank" ∧ d = .literal "mon" := by
  have entries : kinds.declarations.entries =
    [("kind", .literal "Sal@rank@"), ("rank", .literal "mon")] := by decide +kernel
  simpa [entries] using Table.mem_of_get? h

theorem literal : kinds.Literal := by
  intro name d h
  rcases declared h with ⟨-, rfl⟩ | ⟨-, rfl⟩
  · exact ⟨_, rfl⟩
  · exact ⟨_, rfl⟩

theorem literal?_eq_some {name text : String} (h : kinds.literal? name = some text) :
    name = "kind" ∧ text = "Sal@rank@" ∨ name = "rank" ∧ text = "mon" := by
  unfold Mapping.Document.literal? at h
  split at h
  · rename_i text' hd
    cases h
    simpa using declared hd
  · cases h

theorem refers {a b : String} (h : Template.Refers kinds.literal? a b) :
    a = "kind" ∧ b = "rank" := by
  obtain ⟨text, ha, hb⟩ := h
  rcases literal?_eq_some ha with ⟨rfl, rfl⟩ | ⟨rfl, rfl⟩
  · have : Template.tokens "Sal@rank@" = ["rank"] := by decide +kernel
    rw [this, List.mem_singleton] at hb
    exact ⟨rfl, hb⟩
  · have : Template.tokens "mon" = [] := by decide +kernel
    rw [this] at hb
    cases hb

end Rivers

open Rivers Template in
/-- References within references are expanded, and a name without a value stays. -/
theorem salmon_depth_expanded : ∃ w',
    fish.substitute (.level 1) "app.@kind@@depth@" .empty = .done "app.Salmondepth" w' ∧
      Expands kinds.literal? "app.@kind@@depth@".toList "app.Salmondepth".toList := by
  have hclean : ∀ name text, kinds.literal? name = some text → Clean text := by
    intro name text h
    rcases literal?_eq_some h with ⟨-, rfl⟩ | ⟨-, rfl⟩
    · unfold Clean
      decide +kernel
    · unfold Clean
      decide +kernel
  have hchains : ∀ l : List String, l.IsChain (Refers kinds.literal?) → l.length ≤ maxPasses
    | [], _ => by decide
    | [_], _ => by simp [maxPasses]
    | [_, _], _ => by simp [maxPasses]
    | _ :: _ :: _ :: _, h => by
      obtain ⟨hab, h⟩ := List.isChain_cons_cons.1 h
      obtain ⟨hbc, -⟩ := List.isChain_cons_cons.1 h
      have := (refers hab).2.symm.trans (refers hbc).1
      simp at this
  obtain ⟨hsubst, -⟩ := substitution_is_expansion (r := fish) literal hclean hchains unused 0
  obtain ⟨u, w', hrun, -, hexpands⟩ := hsubst "app.@kind@@depth@" (by unfold Clean; decide +kernel)
  obtain ⟨w'', hrun'⟩ := Used.substitute (r := fish) literal unused 0 "app.@kind@@depth@"
  rw [hrun] at hrun'
  cases hrun'
  have passes : (once kinds.literal?)^[2] "app.@kind@@depth@" = "app.Salmondepth" := by
    decide +kernel
  have hu : fish.document.resolved "app.@kind@@depth@" = "app.Salmondepth" := by
    -- After two passes nothing changes any more.
    change (once kinds.literal?)^[62 + 2] "app.@kind@@depth@" = _
    rw [Function.iterate_add_apply, passes]
    exact iterate_once_of_not_hasTokens _ (by decide +kernel) 62
  rw [hu] at hrun hexpands
  exact ⟨w', hrun, (hexpands _).2 rfl⟩

/-! ### Members -/

/-- Resolving a member gives the real name of the first text that is renamed, among the logical
name and its passes, and if none is, the same as substituting the logical name.  The renames that
count are those of all owner templates that resolve to the same as the owner. -/
theorem member_is_first_renamed (hdoc : r.document.Literal) (hcons : r.document.Consistent)
    (hw : r.Used w) (n : Nat) (owner logical : String) :
    ∃ o w₁ x w₂ real w₃,
      r.substitute (.level (n + 1)) owner w = .done o w₁ ∧
      r.substitute (.level (n + 1)) logical w = .done x w₂ ∧
      r.resolveMember (.level (n + 1)) owner logical w = .done real w₃ ∧
      (∀ k ≤ Template.maxPasses, ∀ found,
        r.document.RenamedTo o (r.document.after k logical) found →
        (∀ j < k, ∀ other, ¬ r.document.RenamedTo o (r.document.after j logical) other) →
          real = found) ∧
      ((∀ k ≤ Template.maxPasses, ∀ other,
        ¬ r.document.RenamedTo o (r.document.after k logical) other) → real = x) := by
  obtain ⟨w₁, howner⟩ := hw.substitute hdoc n owner
  obtain ⟨w₂, hlogical⟩ := hw.substitute hdoc n logical
  obtain ⟨real, w₃, hmember, -, hreal⟩ :=
    resolveMember_of_faithful (findsLiterals_level hdoc n) (hw.faithful hdoc) owner logical
  refine ⟨_, w₁, _, w₂, real, w₃, howner, hlogical, hmember, ?_, ?_⟩
  · intro k hk found hfound hfirst
    have answer : r.document.Answer (r.document.resolved owner) logical found :=
      ⟨k, hk, (Mapping.Document.realName?_eq_some_iff hcons).2 hfound, fun j hj =>
        (Mapping.Document.realName?_eq_none_iff hcons).2 (hfirst j hj)⟩
    rcases hreal with h | ⟨hnone, -⟩
    · exact h.unique answer
    · obtain ⟨k, hk, h, -⟩ := answer
      rw [hnone k hk] at h
      cases h
  · intro hnone
    rcases hreal with ⟨k, hk, h, -⟩ | ⟨-, h⟩
    · exact absurd ((Mapping.Document.realName?_eq_some_iff hcons).1 h) (hnone k hk real)
    · exact h

namespace Rivers

theorem renamed {owner logical real : String} (h : kinds.RenamedTo owner logical real) :
    logical = "swim" ∧ real = "leap" ∨ logical = "hide" ∧ real = "dig" := by
  have entries : kinds.renames.entries =
      [("app.@kind@", [⟨"swim", "drift"⟩, ⟨"swim", "leap"⟩]),
        ("app.Salmon", [⟨"hide", "dig"⟩])] := by
    decide +kernel
  obtain ⟨t, l, hmem, -, hx⟩ := h
  simp only [entries, List.mem_cons, Prod.mk.injEq, List.not_mem_nil, or_false] at hmem
  rcases hmem with ⟨-, rfl⟩ | ⟨-, rfl⟩
  · by_cases h : "swim" = logical <;> simp_all [lastReal]
  · by_cases h : "hide" = logical <;> simp_all [lastReal]

theorem consistent : kinds.Consistent := by
  intro owner logical real real' h h'
  rcases renamed h with ⟨rfl, rfl⟩ | ⟨rfl, rfl⟩
  · simpa [eq_comm] using (renamed h')
  · simpa [eq_comm] using (renamed h')

end Rivers

open Rivers in
/-- The last of two renames counts, the first time it is asked for and from then on. -/
theorem salmon_leaps : ∃ w w',
    fish.resolveMember (.level 1) "app.@kind@" "swim" .empty = .done "leap" w ∧
      fish.resolveMember (.level 1) "app.@kind@" "swim" w = .done "leap" w' := by
  have leaps {w : World} (hw : fish.Used w) :
      ∃ w', fish.resolveMember (.level 1) "app.@kind@" "swim" w = .done "leap" w' := by
    obtain ⟨o, _, x, _, real, w', howner, -, hrun, hfound, -⟩ :=
      member_is_first_renamed (r := fish) literal consistent hw 0 "app.@kind@" "swim"
    obtain ⟨_, howner'⟩ := hw.substitute literal 0 "app.@kind@"
    rw [howner'] at howner
    cases howner
    obtain rfl : real = "leap" := by
      refine hfound 0 (Nat.zero_le _) "leap"
        ⟨"app.@kind@", [⟨"swim", "drift"⟩, ⟨"swim", "leap"⟩], ?_, rfl, ?_⟩
        fun j hj => absurd hj (Nat.not_lt_zero j)
      · decide +kernel
      · decide +kernel
    exact ⟨w', hrun⟩
  obtain ⟨w, hfirst⟩ := leaps unused
  have hw : fish.Used w := by
    refine unused.query (.member "app.@kind@" "swim") 0 ?_
    rw [Query.perform, Act.bind_apply, hfirst]
    rfl
  obtain ⟨w', hagain⟩ := leaps hw
  exact ⟨w, w', hfirst, hagain⟩

end Resolver

end LateBinding
