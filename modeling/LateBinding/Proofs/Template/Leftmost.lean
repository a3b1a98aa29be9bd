import LateBinding.Proofs.Template.Clean

/-!
# Reading from the left

A token begins at the head of a text if a name between two `@` stands there (`Template.Opens`).  A
text is cut *leftmost first* if no token begins within a plain stretch, read on into what follows
it, and if what stands between two `@` is a name (`Segments.Leftmost`).

There is exactly one such cut of a text, and it is the one that the scan finds (`scan_eq_iff`).
One pass asks for the names of this cut from left to right, each once, and copies the rest
(`substituteOnce_eq`).

* `text_is_read_leftmost_first` : **listing the tokens, asking whether there is one and replacing
  them all read the one cut of the text that is leftmost first**.
-/

namespace LateBinding.Template

/-! ### Where tokens begin -/

/-- A token begins at the head of the text. -/
def Opens (s : List Char) : Prop :=
  ∃ name after, s = '@' :: name ++ '@' :: after ∧ name ≠ [] ∧ ∀ c ∈ name, isWordChar c = true

theorem token?_eq_none_iff {s : List Char} : token? s = none ↔ ¬ Opens s := by
  constructor
  · rintro h ⟨name, after, rfl, hn, hw⟩
    rw [token?_token hn hw] at h
    simp at h
  · intro h
    cases ht : token? s with
    | none => rfl
    | some t => exact absurd ⟨t.1, t.2, token?_eq_some ht⟩ h

namespace Segments

/-- No token begins within the opening, read on into what follows it. -/
def OpensPlain (g : Segments) : Prop :=
  ∀ before c after, g.opening = before ++ c :: after → ¬ Opens (text ⟨c :: after, g.tokens⟩)

theorem opensPlain_nil (l : List (List Char × List Char)) : OpensPlain ⟨[], l⟩ := by
  intro before c after h
  simp at h

theorem opensPlain_cons_iff {c : Char} {s : List Char} {l : List (List Char × List Char)} :
    OpensPlain ⟨c :: s, l⟩ ↔ ¬ Opens (c :: text ⟨s, l⟩) ∧ OpensPlain ⟨s, l⟩ := by
  constructor
  · intro h
    refine ⟨h [] c s rfl, fun before d after hs => h (c :: before) d after ?_⟩
    simpa using hs
  · rintro ⟨hc, hs⟩ before d after h
    cases before with
    | nil =>
      simp only [List.nil_append, List.cons.injEq] at h
      rwa [← h.1, ← h.2]
    | cons b before =>
      simp only [List.cons_append, List.cons.injEq] at h
      exact hs before d after h.2

/-- The text is cut leftmost first: what is taken for a name is one, and no token begins within a
plain stretch, read on into what follows it. -/
structure Leftmost (g : Segments) : Prop where
  /-- Names are non-empty runs of word characters. -/
  name : ∀ t ∈ g.tokens, t.1 ≠ [] ∧ ∀ c ∈ t.1, isWordChar c = true
  /-- No token begins before the first one. -/
  opening : g.OpensPlain
  /-- No token begins between one and the next. -/
  between : ∀ before t after, g.tokens = before ++ t :: after → OpensPlain ⟨t.2, after⟩

theorem text_cons (c : Char) (s : List Char) (l : List (List Char × List Char)) :
    text ⟨c :: s, l⟩ = c :: text ⟨s, l⟩ := rfl

theorem text_token (name s : List Char) (l : List (List Char × List Char)) :
    text ⟨[], (name, s) :: l⟩ = '@' :: name ++ '@' :: text ⟨s, l⟩ := by
  simp [text]

namespace Leftmost

variable {s : List Char} {l : List (List Char × List Char)}

theorem nil : Leftmost ⟨[], []⟩ where
  name _ h := by simp at h
  opening := opensPlain_nil []
  between before t after h := by simp at h

theorem cons_iff {c : Char} :
    Leftmost ⟨c :: s, l⟩ ↔ ¬ Opens (c :: text ⟨s, l⟩) ∧ Leftmost ⟨s, l⟩ := by
  constructor
  · intro h
    obtain ⟨hc, hs⟩ := opensPlain_cons_iff.1 h.opening
    exact ⟨hc, h.name, hs, h.between⟩
  · rintro ⟨hc, hs⟩
    exact ⟨hs.name, opensPlain_cons_iff.2 ⟨hc, hs.opening⟩, hs.between⟩

theorem token_iff {name : List Char} :
    Leftmost ⟨[], (name, s) :: l⟩ ↔
      (name ≠ [] ∧ ∀ c ∈ name, isWordChar c = true) ∧ Leftmost ⟨s, l⟩ := by
  constructor
  · intro h
    refine ⟨h.name _ List.mem_cons_self, fun t ht => h.name t (List.mem_cons_of_mem _ ht),
      h.between [] _ _ rfl, fun before t after ht => h.between ((name, s) :: before) t after ?_⟩
    simpa using ht
  · rintro ⟨hname, hs⟩
    refine ⟨List.forall_mem_cons.2 ⟨hname, hs.name⟩, opensPlain_nil _, fun before t after h => ?_⟩
    cases before with
    | nil =>
      simp only [List.nil_append, List.cons.injEq] at h
      rw [← h.1, ← h.2]
      exact hs.opening
    | cons u before =>
      simp only [List.cons_append, List.cons.injEq] at h
      exact hs.between before t after h.2

end Leftmost

end Segments

/-! ### The scan -/

/-- The scan cuts leftmost first. -/
theorem leftmost_scan (s : List Char) : (scan s).Leftmost := by
  fun_induction scan s with
  | case1 => exact .nil
  | case2 c rest name after h next ih =>
    obtain ⟨-, hn, hw⟩ := token?_eq_some h
    exact Segments.Leftmost.token_iff.2 ⟨⟨hn, hw⟩, ih⟩
  | case3 c rest h next ih =>
    refine Segments.Leftmost.cons_iff.2 ⟨?_, ih⟩
    have rest_eq : Segments.text ⟨next.opening, next.tokens⟩ = rest := text_scan rest
    rw [rest_eq]
    exact token?_eq_none_iff.1 h

/-- The scan passes over a plain stretch in front of what it cuts. -/
theorem scan_opening {l : List (List Char × List Char)} {s : List Char}
    (hl : scan (Segments.text ⟨[], l⟩) = ⟨[], l⟩) (hs : Segments.OpensPlain ⟨s, l⟩) :
    scan (Segments.text ⟨s, l⟩) = ⟨s, l⟩ := by
  induction s with
  | nil => exact hl
  | cons c s ih =>
    obtain ⟨hc, hs⟩ := Segments.opensPlain_cons_iff.1 hs
    rw [Segments.text_cons, scan_of_token?_eq_none (token?_eq_none_iff.2 hc), ih hs]

/-- A cut that is leftmost first is the one that the scan finds. -/
theorem scan_text {g : Segments} (hg : g.Leftmost) : scan g.text = g := by
  obtain ⟨opening, l⟩ := g
  induction l generalizing opening with
  | nil => exact scan_opening scan_nil hg.opening
  | cons t l ih =>
    refine scan_opening ?_ hg.opening
    obtain ⟨⟨hn, hw⟩, behind⟩ := Segments.Leftmost.token_iff.1
      { hg with opening := Segments.opensPlain_nil (t :: l) }
    rw [Segments.text_token, scan_token hn hw, ih _ behind]

/-- The scan finds the cut of the text that is leftmost first. -/
theorem scan_eq_iff {s : List Char} {g : Segments} : scan s = g ↔ g.text = s ∧ g.Leftmost := by
  constructor
  · rintro rfl
    exact ⟨text_scan s, leftmost_scan s⟩
  · rintro ⟨rfl, hg⟩
    exact scan_text hg

theorem hasTokens_iff {text : String} :
    hasTokens text = true ↔ 0 < (scan text.toList).tokens.length := by
  simp [hasTokens, List.length_pos_iff]

/-! ### One pass -/

/-- The text with values in the places of the tokens, and names in the places of those that have no
value. -/
def Segments.filled (g : Segments) (values : List (Option String)) : List Char :=
  g.opening ++ (List.zipWith
    (fun t v => (v.map String.toList).getD t.1 ++ t.2) g.tokens values).flatten

section Pass

variable {m : Type → Type} [Monad m] [LawfulMonad m] (lookup : String → m (Option String))

theorem fill_eq (l : List (List Char × List Char)) :
    fill lookup l = do
      let values ← (l.map fun t => String.ofList t.1).mapM lookup
      return String.ofList (Segments.filled ⟨[], l⟩ values) := by
  induction l with
  | nil => simp [fill, Segments.filled]
  | cons t l ih =>
    have filled (v : Option String) (values : List (Option String)) :
        v.getD (String.ofList t.1) ++ String.ofList t.2 ++
          String.ofList (Segments.filled ⟨[], l⟩ values) =
            String.ofList (Segments.filled ⟨[], t :: l⟩ (v :: values)) := by
      rw [← String.toList_inj]
      cases v <;> simp [Segments.filled]
    simp only [fill, ih, List.map_cons, List.mapM_cons, bind_assoc, pure_bind, filled]

/-- A pass asks for the names of the tokens from left to right, each once, and then puts the values
in their places. -/
theorem substituteOnce_eq (text : String) :
    substituteOnce lookup text = do
      let values ← (tokens text).mapM lookup
      return String.ofList ((scan text.toList).filled values) := by
  have opening (values : List (Option String)) :
      String.ofList (scan text.toList).opening ++
        String.ofList (Segments.filled ⟨[], (scan text.toList).tokens⟩ values) =
          String.ofList ((scan text.toList).filled values) := by
    rw [← String.toList_inj]
    simp [Segments.filled]
  simp only [substituteOnce, fill_eq, bind_assoc, pure_bind, opening, tokens]

end Pass

theorem once_eq (lookup : String → Option String) (text : String) :
    once lookup text = String.ofList ((scan text.toList).filled ((tokens text).map lookup)) := by
  rw [once, substituteOnce_eq, List.mapM_pure]
  rfl

/-- **A text is read leftmost first.**  It is made of plain stretches and of names between two `@`,
in one way such that no token begins within a plain stretch.  The names are the tokens that are
listed, there is one if the text is said to have one, and a pass puts the values that it looks up
from left to right, or else the bare names, in their places, and leaves the plain stretches. -/
theorem text_is_read_leftmost_first (text : String) :
    ∃ g : Segments, g.text = text.toList ∧ g.Leftmost ∧
      (∀ g' : Segments, g'.text = text.toList → g'.Leftmost → g' = g) ∧
      tokens text = g.tokens.map (fun t => String.ofList t.1) ∧
      (hasTokens text = true ↔ 0 < g.tokens.length) ∧
      (∀ lookup : String → Option String,
        once lookup text = String.ofList (g.filled ((tokens text).map lookup))) ∧
      ∀ (m : Type → Type) [Monad m] [LawfulMonad m] (lookup : String → m (Option String)),
        substituteOnce lookup text = do
          let values ← (tokens text).mapM lookup
          return String.ofList (g.filled values) := by
  have unique (g : Segments) (ht : g.text = text.toList) (hg : g.Leftmost) :
      g = scan text.toList := (scan_eq_iff.2 ⟨ht, hg⟩).symm
  exact ⟨scan text.toList, text_scan _, leftmost_scan _, unique, rfl, hasTokens_iff,
    fun lookup => once_eq lookup text, fun m _ _ lookup => substituteOnce_eq lookup text⟩

/-- An `@` that opens no token is passed over, and one that closes a token opens no other. -/
example : tokens "a@@b@c@d@" = ["b", "d"] := by decide +kernel

end LateBinding.Template
