import PatternAction.Pattern.Matching
import PatternAction.Proofs.Number.Writing
import PatternAction.Proofs.Run.Operations
import PatternAction.Proofs.Text.Substitution

namespace PatternAction

theorem Value.ofNat_eq_zero_iff {n : Nat} : ofNat n = ⟨"0"⟩ ↔ n = 0 := by
  rw [← Number.canonical_ofNat_eq_zero_iff, ofNat, ofNumber, mk.injEq]

-- A state that differs from another one in the record alone.
structure State.Rerecorded (s : State) (record : String) (s' : State) : Prop where
  rest   : s' = { s with environment := s'.environment }
  frames : s'.environment.frames = s.environment.frames
  record : s'.environment.field "$0" = ⟨record⟩
  others : ∀ r ≠ ⟨.globals, "$0"⟩, s'.environment.cell? r = s.environment.cell? r

theorem State.rerecorded_setGlobal (s : State) (record : String) :
    s.Rerecorded record { s with environment := s.environment.setGlobal "$0" ⟨record⟩ } where
  rest     := rfl
  frames   := rfl
  record   := by rw [Environment.field, Environment.setGlobal, Table.get?_insert_self]
  others _ := Environment.cell?_setGlobal_of_ne

namespace Run

variable [Patterns] {p : Program} {n : Nat} {m m₁ m₂ m₃ : Machine}
  {source replacement subject : Expr} {target : Option Expr} {l : Location} {s : String}
  {q : Matcher} {r v : Value}

theorem pattern_on (hq : Patterns.matcher? s = some q) : (pattern s).on m = (.ok q, m) := by
  rw [pattern, hq]
  rfl

theorem substituted_on (all : Bool) (hs : (evalPattern p n source).on m = (.ok s, m₁))
    (hr : (eval p n replacement).on m₁ = (.ok r, m₂))
    (hv : (evalOrRecord p n target).on m₂ = (.ok v, m₃)) (hq : Patterns.matcher? s = some q) :
    (substituted p (n + 1) all source replacement target).on m =
      let (result, count) := substitute q r.text.toList v.text.toList all
      (.ok (.ofNat count), m₃.withEnvironment
        (m₃.environment.setGlobal "$0" ⟨String.ofList result⟩)) := by
  rw [substituted, on_bind_ok hs, on_bind_ok hr, on_bind_ok hv, on_bind_ok (pattern_on hq)]
  rfl

theorem call_substitution (all : Bool) (hp : p.function? (if all then "gsub" else "sub") = none) :
    eval p (n + 3) (.call (if all then "gsub" else "sub")
      (source :: replacement :: target.toList) l) =
        substituted p (n + 1) all source replacement target := by
  have hg : Builtin.ofName? "gsub" = some .gsub := by decide
  have hf : Builtin.ofName? "sub" = some .sub := by decide
  cases all
  case false =>
    rw [if_neg Bool.false_ne_true] at hp ⊢
    rw [eval, hp, hf]
    cases target <;> rfl
  case true =>
    rw [if_pos rfl] at hp ⊢
    rw [eval, hp, hg]
    cases target <;> rfl

theorem search_on (hv : (eval p n subject).on m = (.ok v, m₁)) (hq : Patterns.matcher? s = some q) :
    ∃ w, (eval p (n + 1) (.search subject s false l)).on m = (.ok w, m₁) ∧
      (w = ⟨"0"⟩ ↔ q.found v.text.toList = []) := by
  refine ⟨.ofBool (q.isFound v.text.toList.toArray), ?_, ?_⟩
  · rw [eval, on_bind_ok hv, on_bind_ok (pattern_on hq)]
    cases q.isFound v.text.toList.toArray <;> rfl
  · rw [Matcher.isFound_eq]
    cases q.found v.text.toList <;> simp [Value.ofBool]

theorem call_match_on (hp : p.function? "match" = none)
    (hv : (eval p n subject).on m = (.ok v, m₁))
    (hs : (evalPattern p n source).on m₁ = (.ok s, m₂)) (hq : Patterns.matcher? s = some q) :
    ∃ w, (eval p (n + 2) (.call "match" [subject, source] l)).on m = (.ok w, m₂) ∧
      (w = ⟨"0"⟩ ↔ q.found v.text.toList = []) := by
  let place := (q.find? v.text.toList.toArray).map (·.1 + 1)
  have hb : Builtin.ofName? "match" = some .match := by decide
  refine ⟨.ofNat (place.getD 0), ?_, ?_⟩
  · rw [eval, hp, hb]
    change (provided p (n + 1) .match [subject, source] l).on m = _
    rw [provided, on_bind_ok hv, on_bind_ok hs, on_bind_ok (pattern_on hq)]
    simp only [place]
    cases q.find? v.text.toList.toArray <;> rfl
  · rw [Value.ofNat_eq_zero_iff, Matcher.found_eq_nil_iff_find?]
    simp only [place]
    cases q.find? v.text.toList.toArray <;> simp

end Run

-- The gaps between the matches stay, all matches or the first one are replaced, and all of them
-- are counted. The result becomes the record, whatever text it is made from, and nothing else is
-- changed after the arguments are evaluated. The result is that text if the matches are replaced
-- by themselves, and if there are none, which is when a search for the pattern and a request for
-- the place of a match give zero.
theorem substitution_rewrites_matches [Patterns] {p : Program} {n : Nat} {m m₁ m₂ m₃ : Machine}
    {source replacement : Expr} {target : Option Expr} {s : String} {q : Matcher} {r v : Value}
    (all : Bool) (l : Location) (hp : p.function? (if all then "gsub" else "sub") = none)
    (hs : (Run.evalPattern p n source).on m = (.ok s, m₁))
    (hr : (Run.eval p n replacement).on m₁ = (.ok r, m₂))
    (hv : (Run.evalOrRecord p n target).on m₂ = (.ok v, m₃)) (hq : Patterns.matcher? s = some q) :
    let text := v.text.toList
    let found := q.found text
    let expand (matched : List Char) := filled matched none r.text.toList
    let result := String.ofList
      (if all then q.rewriteAll expand text else q.rewriteFirst expand text)
    (byTurns (q.gaps text) found).flatten = text ∧
    (∃ w m', (Run.eval p (n + 3) (.call (if all then "gsub" else "sub")
          (source :: replacement :: target.toList) l)).on m = (.ok w, m') ∧
        w = .ofNat found.length ∧ (found.length ≤ 2 ^ 53 → w.text = toString found.length) ∧
        m₃.toState.Rerecorded result m'.toState) ∧
    (r.text = "&" → result = v.text) ∧
    (found = [] → result = v.text) ∧
    (∀ (subject : Expr) (l : Location) (m m' : Machine),
      (Run.eval p n subject).on m = (.ok v, m') →
      ∃ w, (Run.eval p (n + 1) (.search subject s false l)).on m = (.ok w, m') ∧
        (w = ⟨"0"⟩ ↔ found = [])) ∧
    ∀ (subject source : Expr) (l : Location) (m m' m'' : Machine),
      p.function? "match" = none → (Run.eval p n subject).on m = (.ok v, m') →
      (Run.evalPattern p n source).on m' = (.ok s, m'') →
      ∃ w, (Run.eval p (n + 2) (.call "match" [subject, source] l)).on m = (.ok w, m'') ∧
        (w = ⟨"0"⟩ ↔ found = []) := by
  intro text found expand result
  have hresult (ha : q.rewriteAll expand text = text) (hf : q.rewriteFirst expand text = text) :
      result = v.text := by
    rw [← String.ofList_toList (s := v.text)]
    refine congrArg String.ofList ?_
    rw [ha, hf, ite_self]
  refine ⟨?_, ?_, fun hr => ?_, fun hn => ?_, fun _ _ _ _ hv => Run.search_on hv hq,
    fun _ _ _ _ _ _ hp hv hs => Run.call_match_on hp hv hs hq⟩
  · have h : q.rewriteAll id text = text := Matcher.rewriteAll_id
    rwa [Matcher.rewriteAll, List.map_id] at h
  · refine ⟨_, m₃.withEnvironment (m₃.environment.setGlobal "$0" ⟨result⟩), ?_, rfl, fun h => ?_,
      m₃.toState.rerecorded_setGlobal result⟩
    · rw [Run.call_substitution all hp, Run.substituted_on all hs hr hv hq, substitute_eq]
    · rw [Value.ofNat_eq h]
  · have he : expand = id := by
      rw [← filled_ampersand]
      exact congrArg (fun t matched => filled matched none t.toList) hr
    rw [he] at hresult
    exact hresult Matcher.rewriteAll_id Matcher.rewriteFirst_id
  · exact hresult (Matcher.rewriteAll_of_found_eq_nil hn) (Matcher.rewriteFirst_of_found_eq_nil hn)

-- Matches may be empty, and are counted, too.
theorem substitution_rewrites_matches_empty :
    ∃ w m', (Run.eval {} 5 (.call "gsub" [.pattern "b*" .start, .constant "<\\&&>" .start,
        .constant "abc" .start] .start)).on {} = (.ok w, m') ∧
      w.text = "3" ∧ m'.environment.field "$0" = ⟨"<&>a<&b>c<&>"⟩ := by
  let q := (Patterns.matcher? "b*").get (by decide +kernel)
  let v : Value := ⟨"abc"⟩
  have hs : (Run.evalPattern {} 2 (.pattern "b*" .start)).on {} = (.ok "b*", {}) := rfl
  have hr : (Run.eval {} 2 (.constant "<\\&&>" .start)).on {} = (.ok ⟨"<\\&&>"⟩, {}) := rfl
  have hv : (Run.evalOrRecord {} 2 (some (.constant "abc" .start))).on {} = (.ok v, {}) := rfl
  have hq : Patterns.matcher? "b*" = some q := (Option.some_get _).symm
  have hc : (q.found v.text.toList).length = 3 := by decide +kernel
  obtain ⟨_, ⟨w, m', he, _, hw, hm⟩, _⟩ :=
    substitution_rewrites_matches true .start rfl hs hr hv hq
  refine ⟨w, m', he, ?_, hm.record.trans ?_⟩
  · have hle : (q.found v.text.toList).length ≤ 2 ^ 53 := by
      rw [hc]
      decide
    rw [hw hle, hc]
    rfl
  · decide +kernel

end PatternAction
