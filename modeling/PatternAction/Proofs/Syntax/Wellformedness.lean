import Mathlib.Data.List.Nodup
import PatternAction.Proofs.Lexical.Spelling
import PatternAction.Proofs.Syntax.Progress

namespace PatternAction

namespace Parse

variable {stands : Location → Prop} {bare : Prop} {ending l : Location} {m n w : Nat} {p : Program}
  {ts : List Token}

theorem proceeds_function (he : stands ending) (hn : Enough 32 m n) (hl : stands l) :
    Proceeds stands bare m 1 (function ending n l) (Function.WellFormed stands bare) := by
  refine (Proceeds.expectWord he).bind fun name m₁ _ hm => ?_
  have hn : Enough 32 m₁ n := hn.past (by omega)
  refine .expect_bind he nofun (Proceeds.mono (d := 1) ?_)
  refine (proceedsExpressions he n).listed he hn.mono fun params m₂ hm₂ hp => ?_
  refine ((proceedsStatements he n).block (hn.past hm₂).mono).andThen fun body hb => ?_
  exact .pure ⟨hl, hp, hb⟩

theorem nodup_names (h : (p.functions.map (·.name)).Nodup) {f : Function}
    (hf : ¬p.functions.any (·.name == f.name)) :
    ((p.functions ++ [f]).map (·.name)).Nodup := by
  rw [List.map_append, List.nodup_append]
  refine ⟨h, List.nodup_singleton _, fun x hx y hy hxy => hf ?_⟩
  obtain ⟨g, hg, rfl⟩ := List.mem_map.mp hx
  cases List.mem_singleton.mp hy
  exact List.any_eq_true.mpr ⟨g, hg, beq_iff_eq.mpr hxy⟩

theorem proceeds_item (he : stands ending) (hn : Enough 18 m n) (hp : p.WellFormed stands bare) :
    Proceeds stands bare m 1 (item ending n p) (Program.WellFormed stands bare) := by
  have hb {m : Nat} (hn : Enough 18 m n) :
      Proceeds stands bare m 1 (block ending n) (Block.WellFormed stands bare) :=
    (proceedsStatements he n).block hn
  refine .here he fun l hl => .peek fun k => ?_
  split
  case h_1 =>
    refine .skip nofun fun _ hm => (proceeds_function he (hn.past hm) hl).andThen fun f hf => ?_
    split
    case isTrue => exact .fail hl nofun
    case isFalse hne =>
      refine .pure { hp with functions := ?_, distinct := nodup_names hp.distinct hne }
      exact List.forall_mem_append.mpr ⟨hp.functions, List.forall_mem_singleton.mpr hf⟩
  case h_2 =>
    refine .skip nofun fun _ hm => (hb (hn.past hm).mono).andThen fun b hb => ?_
    refine .pure { hp with begins := ?_ }
    exact List.forall_mem_append.mpr ⟨hp.begins, List.forall_mem_singleton.mpr hb⟩
  case h_3 =>
    refine .skip nofun fun _ hm => (hb (hn.past hm).mono).andThen fun b hb => ?_
    refine .pure { hp with ends := ?_ }
    exact List.forall_mem_append.mpr ⟨hp.ends, List.forall_mem_singleton.mpr hb⟩
  case h_4 =>
    refine .of_proceeds (((proceedsExpressions he n).optional hn.mono _).andThen fun test ht => ?_)
    refine (hb hn).bind fun action _ ha _ => .pure { hp with rules := ?_ }
    exact List.forall_mem_append.mpr ⟨hp.rules, List.forall_mem_singleton.mpr ⟨ht, ha⟩⟩

theorem proceeds_items (he : stands ending) (hn : Enough 19 m n) (hp : p.WellFormed stands bare) :
    Proceeds stands bare m 0 (items ending n p) (Program.WellFormed stands bare) := by
  induction n generalizing m p
  case zero => exact (not_enough_zero hn).elim
  case succ n ih =>
    refine .peek fun k => .of_proceeds ?_
    split
    case isTrue => exact .pure hp
    case isFalse =>
      refine ((proceeds_item he hn.down hp).bind fun p m₁ hp hm => .skipSeparators ?_).mono
      exact ih (hn.down.past (by omega)).mono hp

theorem fair_program (hts : Placed stands bare ts) (he : stands ending) :
    Fair stands 0 ts (Program.WellFormed stands bare)
      ((program ending (depthBound ts.length)).run ts) := by
  have hn : Enough 19 ts.length (depthBound ts.length) := by
    unfold Enough depthBound
    omega
  have hp : Program.WellFormed stands bare {} := ⟨nofun, nofun, nofun, nofun, .nil⟩
  exact Proceeds.skipSeparators (proceeds_items he hn hp) ts hts (Nat.le_refl _)

-- Where errors at the end of a list are reported.
def endOf (ts : List Token) : Location := (ts.getLast?.map Token.location).getD default

theorem parse_eq (ts : List Token) :
    parse ts = ((program (endOf ts) (depthBound ts.length)).run ts).map Prod.fst := rfl

theorem fair_parse (hts : Placed stands bare ts) (he : stands (endOf ts)) :
    match parse ts with
    | .ok p    => p.WellFormed stands bare
    | .error e => e.cause ≠ .tooDeep ∧ stands e.location := by
  have hf := fair_program hts he
  rw [parse_eq]
  rcases hr : (program (endOf ts) (depthBound ts.length)).run ts with e | ⟨p, rest⟩
  all_goals rw [hr] at hf
  case error => exact hf
  case ok => exact hf.2

end Parse

open Parse

theorem Lexer.spelling_ne_of_word {before text : List Char} {ts : List Token}
    (h : Analysis before text ts) {t : Token} (ht : t ∈ ts) {x : String} (hx : t.kind = .word x)
    (k : Keyword) : k.spelling ≠ x := by
  induction h
  case done =>
    cases List.mem_singleton.mp ht
    cases hx
  case token hl _ ih =>
    rcases List.mem_cons.mp ht with rfl | ht
    · cases hx
      cases hl.lexeme
      case word hk => exact hk k
    · exact ih ht

-- A program that is read from some of the first tokens of a source is well formed, with every node
-- at the place of a token. Errors are at such places too.
theorem wellFormed_of_tokens {source : String} {ts us : List Token} (ht : tokenize source = .ok ts)
    (hu : us <+: ts) :
    (∀ p, parse us = .ok p → p.WellFormed (fun l => ∃ t ∈ us, t.location = l) False) ∧
    ∀ e, parse us = .error e → us ≠ [] → ∃ t ∈ us, t.location = e.location := by
  by_cases hn : us = []
  case pos =>
    subst hn
    refine ⟨fun p hp => ?_, fun e _ hn => absurd rfl hn⟩
    cases hp
    exact ⟨nofun, nofun, nofun, nofun, .nil⟩
  case neg =>
    have hw : Placed (fun l => ∃ t ∈ us, t.location = l) False us := by
      refine ⟨fun t ht => ⟨t, ht, rfl⟩, fun t htu hk => ?_⟩
      have ha := analysis_of_tokenize ht
      exact Lexer.spelling_ne_of_word ha (hu.subset htu) hk .printf rfl
    have he : ∃ t ∈ us, t.location = endOf us := by
      refine ⟨us.getLast hn, List.getLast_mem hn, ?_⟩
      rw [endOf, List.getLast?_eq_some_getLast hn]
      rfl
    have hf := fair_parse hw he
    constructor
    case left =>
      intro p hp
      rwa [hp] at hf
    case right =>
      intro e hp _
      rw [hp] at hf
      exact hf.2

-- All tokens of a source, and those up to its `else`.
theorem wellFormed_of_tokens_truncated :
    ∃ ts, tokenize "length > 1 if (x[1]--) printf \"%d\", $x++; else getline" = .ok ts ∧
      (∃ p, parse ts = .ok p ∧ p.WellFormed (fun l => ∃ t ∈ ts, t.location = l) False) ∧
      ∃ e, parse (ts.take 19) = .error e ∧ ∃ t ∈ ts.take 19, t.location = e.location := by
  let source := "length > 1 if (x[1]--) printf \"%d\", $x++; else getline"
  have hs : (tokenize source).toOption.any fun ts =>
      (parse ts).isOk && !(parse (ts.take 19)).isOk := by decide +kernel
  refine exists_tokenize (by decide +kernel) fun ts ht => ?_
  rw [show tokenize source = .ok ts from ht] at hs
  obtain ⟨hok, herr⟩ := Bool.and_eq_true_iff.mp hs
  constructor
  case left =>
    cases hp : parse ts
    case error => simp [hp, Except.isOk, Except.toBool] at hok
    case ok p => exact ⟨p, rfl, (wellFormed_of_tokens ht List.prefix_rfl).1 p hp⟩
  case right =>
    have hn : ts.take 19 ≠ [] := by
      intro hn
      rw [hn] at herr
      cases herr
    cases hp : parse (ts.take 19)
    case ok => simp [hp, Except.isOk, Except.toBool] at herr
    case error e => exact ⟨e, rfl, (wellFormed_of_tokens ht (List.take_prefix 19 ts)).2 e hp hn⟩

end PatternAction
