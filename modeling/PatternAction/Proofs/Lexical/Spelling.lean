import PatternAction.Proofs.Lexical.Scanning

namespace PatternAction

namespace Quotation

variable {q : Quotation} {cs body : List Char}

theorem head?_encode_ne (cs : List Char) : (q.encode cs).head? ≠ some q.delimiter := by
  cases cs
  case nil => nofun
  case cons c cs =>
    rw [encode]
    split
    case isTrue => simp [delimiter_ne_backslash.symm]
    case isFalse h => simpa using h

theorem encode_eq_nil_iff : q.encode cs = [] ↔ cs = [] := by
  cases cs
  case nil => simp [encode]
  case cons c cs =>
    rw [encode]
    split <;> simp

theorem decode_encode (cs : List Char) : q.decode (q.encode cs) = cs := by
  induction cs
  case nil => rfl
  case cons c cs ih =>
    rw [encode]
    split
    case isTrue h => rw [h, decode_escape, ih]
    case isFalse => rw [decode_cons (fun h => head?_encode_ne cs h.2), ih]

theorem isBody_encode (q : Quotation) (h : cs.getLast? ≠ some '\\') : q.IsBody (q.encode cs) := by
  induction cs
  case nil => exact .nil
  case cons c cs ih =>
    have hcs : cs.getLast? ≠ some '\\' := by
      cases cs
      case nil => nofun
      case cons => simpa using h
    rw [encode]
    split
    case isTrue hc =>
      rw [hc]
      exact IsBody.escape_iff.mpr (ih hcs)
    case isFalse hc =>
      refine (IsBody.cons_iff fun h => head?_encode_ne cs h.2).mpr ⟨hc, ?_, ih hcs⟩
      rintro rfl he
      rw [encode_eq_nil_iff.mp he] at h
      exact h rfl

theorem decode_eq_nil_iff : q.decode cs = [] ↔ cs = [] := by
  induction cs using q.escape_induction
  case nil => simp [decode]
  case escape => simp [decode_escape]
  case cons hc _ => simp [decode_cons hc]

theorem getLast?_decode_ne (h : q.IsBody body) : (q.decode body).getLast? ≠ some '\\' := by
  induction body using q.escape_induction
  case nil => nofun
  case escape cs ih =>
    have hi := ih (IsBody.escape_iff.mp h)
    rw [decode_escape, List.getLast?_cons]
    cases hl : (q.decode cs).getLast?
    case none => simp [delimiter_ne_backslash]
    case some => simpa [hl] using hi
  case cons c cs hc ih =>
    have ⟨_, he, hb⟩ := (IsBody.cons_iff hc).mp h
    have hi := ih hb
    rw [decode_cons hc, List.getLast?_cons]
    cases hl : (q.decode cs).getLast?
    case none =>
      have hcs := decode_eq_nil_iff.mp (List.getLast?_eq_none_iff.mp hl)
      simpa [hcs] using he
    case some => simpa [hl] using hi

end Quotation

namespace Lexeme

variable {k : Kind} {cs : List Char} {c : Char}

theorem ofSpelling (h : Lexeme k cs) : Lexeme k k.spelling.toList := by
  cases h
  case separator => exact .separator (.inl rfl)
  case keyword k => exact .keyword k
  case word hw hk => simpa [Kind.spelling] using Lexeme.word hw hk
  case number hn => simpa [Kind.spelling] using Lexeme.number hn
  case quoted q body hb =>
    have := Lexeme.quoted (q.isBody_encode (Quotation.getLast?_decode_ne hb))
    rw [Quotation.decode_encode] at this
    simpa [Kind.spelling] using this
  case symbol s => exact .symbol s

theorem ne_nil (h : Lexeme k cs) : cs ≠ [] := by
  rintro rfl
  generalize hcs : [] = cs at h
  cases h
  case separator | quoted => cases hcs
  case keyword k =>
    have ⟨_, _, h, _⟩ := k.isWord_spelling.begins
    cases hcs.trans h
  case word hw _ =>
    have ⟨_, _, h, _⟩ := hw.begins
    cases hcs.trans h
  case number hn =>
    rcases hn.begins with ⟨_, _, h, _⟩ | ⟨_, _, h, _⟩ <;> cases hcs.trans h
  case symbol s => cases s <;> cases hcs

theorem head (h : Lexeme k (c :: cs)) : Lexer.isGapBlank c = false ∧ c ≠ '#' := by
  by_contra hc
  have hn : c = ' ' ∨ c = '\t' ∨ c = '\r' ∨ c = '#' := by
    grind [Lexer.isGapBlank]
  have ht : (Lexer.lexeme (c :: cs)).taken = [] := by
    cases cs <;> rcases hn with rfl | rfl | rfl | rfl <;> rfl
  have := Lexer.length_le_taken h []
  simp [ht] at this

theorem getLast?_text_ne {q : Quotation} {s : String} (h : Lexeme (.quoted q s) cs) :
    s.toList.getLast? ≠ some '\\' := by
  cases h
  case quoted hb => simpa using Quotation.getLast?_decode_ne hb

-- The only lexeme that ends with a space or with the end of a line is that end itself.
theorem eq_newline (h : Lexeme k cs) (hc : c = ' ' ∨ c = '\n') (hl : cs.getLast? = some c) :
    cs = ['\n'] := by
  have hm := List.mem_of_getLast? hl
  cases h
  case separator hs => rcases hs with rfl | rfl <;> rcases hc with rfl | rfl <;> trivial
  case keyword k => rcases hc with rfl | rfl <;> cases k.isWord_spelling.chars _ hm
  case word hw _ => rcases hc with rfl | rfl <;> cases hw.chars _ hm
  case number hn => rcases hc with rfl | rfl <;> rcases hn.chars _ hm with h | h <;> cases h
  case quoted q _ _ =>
    rw [← List.cons_append, List.getLast?_concat] at hl
    rcases hc with rfl | rfl <;> cases q <;> cases hl
  case symbol s => rcases hc with rfl | rfl <;> cases s <;> cases hl

theorem getLast?_ne (h : Lexeme k cs) : cs.getLast? ≠ some ' ' := by
  intro hl
  have hn := h.eq_newline (.inl rfl) hl
  rw [hn] at hl
  cases hl

end Lexeme

namespace Lexer

variable {k : Kind} {cs rest before text : List Char} {ts : List Token} {c : Char}

theorem complete_of_blank (h : Lexeme k cs) (rest : List Char) : Complete k cs (' ' :: rest) where
  lexeme := h
  next := by
    rintro c ⟨⟩ k' hl
    exact hl.getLast?_ne List.getLast?_concat
  number := by
    rintro _ _ c ⟨⟩
    decide

theorem gap_of_lexeme (h : Lexeme k cs) (rest : List Char) : Gap (cs ++ rest) [] := by
  cases cs
  case nil => exact absurd rfl h.ne_nil
  case cons c cs =>
    refine .done ?_
    rintro _ ⟨⟩
    exact h.head

theorem analysis_blank (hc : isGapBlank c) (h : Analysis (before ++ [c]) text ts) :
    Analysis before (c :: text) ts := by
  cases h
  case done hg =>
    have := @Analysis.done _ before (.blank hc hg)
    simpa using this
  case token hg hl ha =>
    rw [List.append_assoc before] at ha
    have := Analysis.token (.blank hc hg) hl ha
    simpa using this

theorem analysis_spelling (h : Lexeme k cs)
    (ha : Analysis (before ++ k.spelling.toList ++ [' ']) text ts) :
    Analysis before (k.spelling.toList ++ ' ' :: text) (⟨k, .following before⟩ :: ts) := by
  have hs := h.ofSpelling
  have hl := longest_of_complete (complete_of_blank hs text)
  have := @Analysis.token _ _ _ _ before _ (gap_of_lexeme hs (' ' :: text)) hl
    (by simpa using analysis_blank rfl ha)
  simpa using this

theorem analysis_ne_nil (h : Analysis before text ts) : ts ≠ [] := by
  cases h <;> nofun

theorem analysis_spellings (h : Analysis before text ts) (before' : List Char) :
    ∃ ts', Analysis before' ([' '].intercalate (ts.map (·.kind.spelling.toList))) ts' ∧
      ts'.map (·.kind) = ts.map (·.kind) := by
  induction h generalizing before'
  case done => exact ⟨_, .done (.done (by simp)), rfl⟩
  case token k _ ts _ hl ha ih =>
    have ⟨ts', ha', hk⟩ := ih (before' ++ k.spelling.toList ++ [' '])
    refine ⟨⟨k, .following before'⟩ :: ts', ?_, congrArg (k :: ·) hk⟩
    have := analysis_spelling hl.lexeme ha'
    cases ts
    case nil => exact absurd rfl (analysis_ne_nil ha)
    case cons => simpa [List.intercalate_cons_cons] using this

theorem getLast?_text_ne (h : Analysis before text ts) {q : Quotation} {s : String}
    (hs : Kind.quoted q s ∈ ts.map (·.kind)) : s.toList.getLast? ≠ some '\\' := by
  induction h
  case done => simp at hs
  case token hl _ ih =>
    rw [List.map_cons, List.mem_cons] at hs
    rcases hs with rfl | hs
    · exact hl.lexeme.getLast?_text_ne
    · exact ih hs

theorem analysis_quoted (q : Quotation) {s : String} (hs : s.toList.getLast? ≠ some '\\') :
    ∃ ts, Analysis [] (Kind.quoted q s).spelling.toList ts ∧
      ts.map (·.kind) = [.quoted q s, .eof] := by
  have hl := Lexeme.quoted (q.isBody_encode hs)
  rw [Quotation.decode_encode, String.ofList_toList] at hl
  have hc : Complete (.quoted q s) (q.delimiter :: (q.encode s.toList ++ [q.delimiter])) [] :=
    ⟨hl, nofun, nofun⟩
  have := @Analysis.token _ _ _ _ [] _ (gap_of_lexeme hl []) (longest_of_complete hc)
    (.done (.done nofun))
  exact ⟨_, by simpa [Kind.spelling] using this, rfl⟩

end Lexer

-- The tokens of a text read back from their spellings. A literal can have just those texts that do
-- not end with a backslash.
theorem tokenize_spellings :
    (∀ source ts, tokenize source = .ok ts →
      (∃ ts', tokenize (" ".intercalate (ts.map (·.kind.spelling))) = .ok ts' ∧
        ts'.map (·.kind) = ts.map (·.kind)) ∧
      ∀ q text, Kind.quoted q text ∈ ts.map (·.kind) → text.toList.getLast? ≠ some '\\') ∧
    ∀ q text, text.toList.getLast? ≠ some '\\' →
      ∃ ts, tokenize (Kind.quoted q text).spelling = .ok ts ∧
        ts.map (·.kind) = [.quoted q text, .eof] := by
  refine ⟨fun source ts h => ⟨?_, ?_⟩, ?_⟩
  · have ⟨ts', ha, hk⟩ := Lexer.analysis_spellings (analysis_of_tokenize h) []
    refine ⟨ts', tokenize_of_analysis ?_, hk⟩
    simpa [String.toList_intercalate, Function.comp_def] using ha
  · exact fun q text => Lexer.getLast?_text_ne (analysis_of_tokenize h)
  · intro q text ht
    have ⟨ts, ha, hk⟩ := Lexer.analysis_quoted q ht
    exact ⟨ts, tokenize_of_analysis ha, hk⟩

theorem exists_tokenize {source : String} {P : List Token → Prop} (h : (tokenize source).isOk)
    (hp : ∀ ts, tokenize source = .ok ts → P ts) : ∃ ts, tokenize source = .ok ts ∧ P ts := by
  cases ht : tokenize source
  all_goals rw [ht] at h
  case error => cases h
  case ok ts => exact ⟨ts, rfl, hp ts ht⟩

theorem tokenize_spellings_escapes :
    (∃ ts, tokenize "a.5>=\"\\\\\"\"b\"\\\"\" ; `\n\\``!~ x # y" = .ok ts ∧
      ∃ ts', tokenize (" ".intercalate (ts.map (·.kind.spelling))) = .ok ts' ∧
        ts'.map (·.kind) = ts.map (·.kind)) ∧
    ∃ ts, tokenize (Kind.pattern "\\`\\\\`\"\n").spelling = .ok ts ∧
      ts.map (·.kind) = [.pattern "\\`\\\\`\"\n", .eof] := by
  constructor
  · refine exists_tokenize ?_ fun ts h => (tokenize_spellings.1 _ ts h).1
    decide +kernel
  · exact tokenize_spellings.2 .pattern _ (by decide)

end PatternAction
