import Mathlib.Data.List.TakeWhile
import PatternAction.Proofs.Lexical.Grammar

namespace PatternAction

namespace Lexer

variable {q : Quotation} {cs ds rest text body : List Char} {c : Char} {k : Kind} {point : Bool}

section Gaps

theorem gap_comment (hb : '\n' ∉ body) (hr : ∀ c ∈ rest.head?, c = '\n') :
    gap true (body ++ rest) = (body, rest) := by
  induction body
  case nil =>
    cases rest
    case nil => rfl
    case cons c _ => simp [hr c rfl, gap, isGapBlank]
  case cons c body ih =>
    simp only [List.mem_cons, not_or] at hb
    simp [gap, Ne.symm hb.1, ih hb.2]

theorem gap_eq_of_gap (h : Gap rest ds) : gap false (ds ++ rest) = (ds, rest) := by
  induction h
  case done hr =>
    cases rest
    case nil => rfl
    case cons c _ =>
      have ⟨hb, hc⟩ := hr c rfl
      simp [gap, hb, hc]
  case blank hb _ ih => simp [gap, hb, ih]
  case comment hb hr => simp [gap, isGapBlank, gap_comment hb hr]

theorem comment_of_gap (cs : List Char) :
    '\n' ∉ (gap true cs).1 ∧ ∀ c ∈ (gap true cs).2.head?, c = '\n' := by
  induction cs
  case nil => simp [gap]
  case cons c cs ih =>
    by_cases hc : c = '\n'
    case pos => simp [gap, isGapBlank, hc]
    case neg => simpa [gap, hc, Ne.symm hc] using ih

theorem gap_of_gap (cs : List Char) : Gap (gap false cs).2 (gap false cs).1 := by
  induction cs
  case nil => exact .done (by simp [gap])
  case cons c cs ih =>
    by_cases hb : isGapBlank c
    case pos =>
      have hg : gap false (c :: cs) = (c :: (gap false cs).1, (gap false cs).2) := by simp [gap, hb]
      rw [hg]
      exact .blank hb ih
    case neg =>
      by_cases hc : c = '#'
      case pos =>
        have hg : gap false (c :: cs) = (c :: (gap true cs).1, (gap true cs).2) := by
          simp [gap, isGapBlank, hc]
        have ⟨hb, hr⟩ := comment_of_gap cs
        rw [hg, hc]
        exact .comment hb hr
      case neg =>
        have hg : gap false (c :: cs) = ([], c :: cs) := by simp [gap, hb, hc]
        rw [hg]
        exact .done (by simp [hb, hc])

end Gaps

end Lexer

namespace Quotation

variable {q : Quotation} {cs body : List Char} {c : Char}

theorem delimiter_ne_backslash : q.delimiter ≠ '\\' := by
  cases q <;> decide

namespace IsBody

theorem nil : q.IsBody [] where
  hidden := .singleton _
  closed := by simp [delimiter_ne_backslash]

theorem head_ne (h : q.IsBody (c :: cs)) : c ≠ q.delimiter := by
  have := (List.isChain_cons_cons.mp h.hidden).1
  exact fun hc => delimiter_ne_backslash (this hc)

theorem escape_iff : q.IsBody ('\\' :: q.delimiter :: cs) ↔ q.IsBody cs := by
  constructor
  case mp =>
    intro ⟨hh, hc⟩
    simp only [List.isChain_cons_cons] at hh
    exact ⟨hh.2.2, by simpa using hc⟩
  case mpr =>
    intro ⟨hh, hc⟩
    refine ⟨?_, by simpa using hc⟩
    simp [List.isChain_cons_cons, hh, delimiter_ne_backslash.symm]

theorem cons_iff (h : ¬(c = '\\' ∧ cs.head? = some q.delimiter)) :
    q.IsBody (c :: cs) ↔ c ≠ q.delimiter ∧ (c = '\\' → cs ≠ []) ∧ q.IsBody cs := by
  constructor
  case mp =>
    intro hb
    have ⟨hh, hc⟩ := hb
    refine ⟨hb.head_ne, ?_, ?_, ?_⟩
    · rintro rfl rfl
      simp at hc
    · cases cs
      case nil => exact .singleton _
      case cons d ds =>
        simp only [List.isChain_cons_cons] at hh ⊢
        exact ⟨fun hd => absurd ⟨hh.2.1 hd, by simp [hd]⟩ h, hh.2.2⟩
    · cases cs
      case nil => simp [delimiter_ne_backslash]
      case cons => simpa using hc
  case mpr =>
    intro ⟨hn, he, hh, hc⟩
    refine ⟨?_, ?_⟩
    · refine List.isChain_cons_cons.mpr ⟨fun hd => absurd hd hn, ?_⟩
      cases cs
      case nil => exact .singleton _
      case cons d ds =>
        simp only [List.isChain_cons_cons] at hh ⊢
        exact ⟨fun hd => absurd (hh.1 hd) delimiter_ne_backslash, hh.2⟩
    · cases cs
      case nil => simpa using he
      case cons => simpa using hc

end IsBody

theorem decode_escape : q.decode ('\\' :: q.delimiter :: cs) = q.delimiter :: q.decode cs := by
  simp [decode]

theorem decode_cons (h : ¬(c = '\\' ∧ cs.head? = some q.delimiter)) :
    q.decode (c :: cs) = c :: q.decode cs := by
  cases cs
  case nil => rfl
  case cons d ds =>
    simp only [List.head?_cons, Option.some.injEq] at h
    simp [decode, h]

-- Texts are taken apart as a literal is read: an escaped delimiter is one step.
theorem escape_induction (q : Quotation) {P : List Char → Prop} (nil : P [])
    (escape : ∀ cs, P cs → P ('\\' :: q.delimiter :: cs))
    (cons : ∀ c cs, ¬(c = '\\' ∧ cs.head? = some q.delimiter) → P cs → P (c :: cs)) :
    (cs : List Char) → P cs
  | []      => nil
  | [c]     => cons c [] (by simp) nil
  | c :: d :: cs => by
    by_cases h : c = '\\' ∧ d = q.delimiter
    case pos =>
      rw [h.1, h.2]
      exact escape cs (escape_induction q nil escape cons cs)
    case neg => exact cons c (d :: cs) (by simpa using h) (escape_induction q nil escape cons _)

end Quotation

namespace Lexer

variable {q : Quotation} {cs ds rest text body : List Char} {c : Char} {k : Kind} {point : Bool}

section Quotations

theorem quotation_delimiter : quotation q text (q.delimiter :: cs) =
    ⟨.ok (.quoted q (.ofList text.reverse)), [q.delimiter], cs⟩ := by
  rw [quotation.eq_def]
  simp

theorem quotation_escape : quotation q text ('\\' :: q.delimiter :: cs) =
    ((quotation q (q.delimiter :: text) cs).cons q.delimiter).cons '\\' := by
  rw [quotation.eq_def]
  simp [Quotation.delimiter_ne_backslash.symm]

theorem quotation_cons (hc : c ≠ q.delimiter) (h : ¬(c = '\\' ∧ cs.head? = some q.delimiter)) :
    quotation q text (c :: cs) = (quotation q (c :: text) cs).cons c := by
  rw [quotation.eq_def]
  cases cs
  case nil => simp [hc]
  case cons =>
    simp only [List.head?_cons, Option.some.injEq] at h
    simp [hc, h]

theorem quotation_of_isBody (h : q.IsBody body) (text rest : List Char) :
    quotation q text (body ++ q.delimiter :: rest) =
      ⟨.ok (.quoted q (.ofList (text.reverse ++ q.decode body))), body ++ [q.delimiter], rest⟩ := by
  induction body using q.escape_induction generalizing text
  case nil => simp [quotation_delimiter, Quotation.decode]
  case escape ds ih =>
    have := ih (Quotation.IsBody.escape_iff.mp h) (q.delimiter :: text)
    simp [quotation_escape, this, Scan.cons, Quotation.decode_escape]
  case cons c ds hc ih =>
    obtain ⟨hn, he, hb⟩ := (Quotation.IsBody.cons_iff hc).mp h
    have hc' : ¬(c = '\\' ∧ (ds ++ q.delimiter :: rest).head? = some q.delimiter) := by
      cases ds
      case nil => exact fun h => he h.1 rfl
      case cons => exact hc
    have := ih hb (c :: text)
    simp [quotation_cons hn hc', this, Scan.cons, Quotation.decode_cons hc]

theorem isBody_of_quotation (h : (quotation q text cs).result = .ok k) :
    ∃ body, q.IsBody body ∧ k = .quoted q (.ofList (text.reverse ++ q.decode body)) ∧
      (quotation q text cs).taken = body ++ [q.delimiter] := by
  induction cs using q.escape_induction generalizing text
  case nil => simp [quotation] at h
  case escape ds ih =>
    rw [quotation_escape] at h ⊢
    obtain ⟨body, hb, hk, ht⟩ := ih h
    exact ⟨_, Quotation.IsBody.escape_iff.mpr hb, by simp [hk, Quotation.decode_escape],
      by simp [Scan.cons, ht]⟩
  case cons c ds hc ih =>
    by_cases hd : c = q.delimiter
    case pos =>
      rw [hd, quotation_delimiter] at h ⊢
      exact ⟨[], .nil, by simpa [Quotation.decode] using (Except.ok.inj h).symm, rfl⟩
    case neg =>
      rw [quotation_cons hd hc] at h ⊢
      obtain ⟨body, hb, hk, ht⟩ := ih h
      have hh : ds.head? = (body ++ [q.delimiter]).head? := by
        rw [← quotation_append q (c :: text) ds, ht]
        cases body <;> rfl
      have hc' : ¬(c = '\\' ∧ body.head? = some q.delimiter) := by
        cases body
        case nil => simp
        case cons => simpa [hh] using hc
      refine ⟨c :: body, (Quotation.IsBody.cons_iff hc').mpr ⟨hd, ?_, hb⟩, ?_, ?_⟩
      · rintro hs rfl
        exact hc ⟨hs, hh⟩
      · simp [hk, Quotation.decode_cons hc']
      · simp [Scan.cons, ht]

end Quotations

section Numbers

theorem number_of_chars (hp : ∀ c ∈ ds, c.isDigit ∨ c = '.') (hc : ds.count '.' + point.toNat ≤ 1)
    (text rest : List Char) : number point text (ds ++ rest) =
      let scan := number (point || ds.contains '.') (ds.reverse ++ text) rest
      { scan with taken := ds ++ scan.taken } := by
  induction ds generalizing point text
  case nil => simp
  case cons c ds ih =>
    obtain ⟨hd, hp⟩ := List.forall_mem_cons.mp hp
    rw [List.cons_append, number]
    by_cases hcd : c.isDigit
    case pos =>
      have hn : c ≠ '.' := by
        rintro rfl
        cases hcd
      rw [if_pos hcd, ih hp (by simpa [hn] using hc)]
      simp [Scan.cons, Ne.symm hn]
    case neg =>
      have hd := hd.resolve_left hcd
      have hf : point = false := by
        cases point
        case false => rfl
        case true => simp [hd] at hc
      rw [if_neg hcd, if_pos hd, hf, if_neg Bool.false_ne_true, ih hp (by simpa [hd, hf] using hc)]
      simp [Scan.cons, hd]

theorem number_done
    (hr : ∀ c ∈ rest.head?, c.isDigit = false ∧ c ≠ '.' ∧ Text.isAlphabetic c = false)
    (point : Bool) (text : List Char) :
    number point text rest = ⟨.ok (.number (.ofList text.reverse)), [], rest⟩ := by
  cases rest
  case nil => rfl
  case cons c _ =>
    have ⟨hd, hp, ha⟩ := hr c rfl
    simp [number, hd, hp, ha]

theorem chars_of_number (h : (number point text cs).result = .ok k) :
    (∀ c ∈ (number point text cs).taken, c.isDigit ∨ c = '.') ∧
    (number point text cs).taken.count '.' + point.toNat ≤ 1 ∧
    k = .number (.ofList (text.reverse ++ (number point text cs).taken)) ∧
    ∀ c ∈ (number point text cs).rest.head?,
      c.isDigit = false ∧ c ≠ '.' ∧ Text.isAlphabetic c = false := by
  fun_induction number point text cs
  case case1 point _ =>
    cases point <;> simpa using h.symm
  case case2 c _ hc ih =>
    obtain ⟨hd, hp, hk, hr⟩ := ih h
    have hn : c ≠ '.' := by
      rintro rfl
      cases hc
    exact ⟨by simpa [Scan.cons, hc] using hd, by simpa [Scan.cons, hn] using hp,
      by simpa [Scan.cons] using hk, hr⟩
  case case3 => cases h
  case case4 hf _ ih =>
    obtain ⟨hd, hp, hk, hr⟩ := ih h
    exact ⟨by simpa [Scan.cons] using hd, by simpa [Scan.cons, hf] using hp,
      by simpa [Scan.cons] using hk, hr⟩
  case case5 => cases h
  case case6 point _ c _ hc hp ha =>
    cases point <;> simpa [hc, hp, ha] using h.symm

theorem begins_of_number (h : c.isDigit ∨ c = '.' ∧ cs.head?.any Char.isDigit) :
    (∃ d ds, (number false [] (c :: cs)).taken = d :: ds ∧ d.isDigit) ∨
    ∃ d ds, (number false [] (c :: cs)).taken = '.' :: d :: ds ∧ d.isDigit := by
  rcases h with hc | ⟨rfl, hd⟩
  · refine .inl ⟨c, (number false [c] cs).taken, ?_, hc⟩
    simp [number, hc, Scan.cons]
  · obtain ⟨d, hd, hdd⟩ := (Option.any_eq_true _ _).mp hd
    obtain ⟨ds, hds⟩ := List.head?_eq_some_iff.mp hd
    refine .inr ⟨d, (number true [d, '.'] ds).taken, ?_, hdd⟩
    simp [number, hds, hdd, Scan.cons]

end Numbers

section Words

theorem word_of_chars (hc : ∀ c ∈ ds, isWordChar c) (hr : ∀ c ∈ rest.head?, isWordChar c = false) :
    word (ds ++ rest) =
      ⟨.ok (((Keyword.ofSpelling? (.ofList ds)).map Kind.keyword).getD (.word (.ofList ds))),
        ds, rest⟩ := by
  have ht : rest.takeWhile isWordChar = [] := by
    cases rest
    case nil => rfl
    case cons c _ => simp [hr c rfl]
  have hd : rest.dropWhile isWordChar = rest := by
    cases rest
    case nil => rfl
    case cons c _ => simp [hr c rfl]
  simp [word, List.takeWhile_append_of_pos hc, List.dropWhile_append_of_pos hc, ht, hd]

theorem length_le_taken_word (hc : ∀ c ∈ ds, isWordChar c) (rest : List Char) :
    ds.length ≤ (word (ds ++ rest)).taken.length := by
  simp [word, List.takeWhile_append_of_pos hc]

end Words

end Lexer

namespace Keyword

theorem mem_all (k : Keyword) : k ∈ all := by
  cases k <;> decide

theorem ofSpelling?_spelling (k : Keyword) : ofSpelling? k.spelling = some k := by
  cases k <;> decide

theorem ofSpelling?_eq_none_iff {x : String} :
    ofSpelling? x = none ↔ ∀ k : Keyword, k.spelling ≠ x := by
  simp [ofSpelling?, mem_all]

theorem isWord_spelling (k : Keyword) : IsWord k.spelling.toList where
  chars := by
    have h : k.spelling.toList.all Lexer.isWordChar := by cases k <;> decide
    exact List.all_eq_true.mp h
  begins := by cases k <;> exact ⟨_, _, rfl, by decide⟩

end Keyword

namespace Symbol

theorem toList_spelling (s : Symbol) :
    (∃ c, s.spelling.toList = [c] ∧ single? c = some s) ∨
    (∃ c d, s.spelling.toList = [c, d] ∧ pair? c d = some s) := by
  cases s <;> first | exact .inl ⟨_, rfl, rfl⟩ | exact .inr ⟨_, _, rfl, rfl⟩

end Symbol

namespace Lexer

variable {q : Quotation} {cs ds rest text body : List Char} {c : Char} {k k' : Kind} {s : Symbol}

section Lexemes

theorem lexeme_of_isAlpha (h : c.isAlpha) : lexeme (c :: cs) = word (c :: cs) := by
  have hn : ∀ d : Char, d.isAlpha = false → c ≠ d := by
    rintro d hd rfl
    cases h.symm.trans hd
  have hd : c.isDigit = false := by
    unfold Char.isAlpha Char.isUpper Char.isLower at h
    unfold Char.isDigit
    grind
  simp [lexeme, Quotation.delimiter, h, hd, hn '\n' (by decide), hn ';' (by decide),
    hn '"' (by decide), hn '\x60' (by decide), hn '.' (by decide)]

theorem lexeme_of_isWord (h : IsWord ds) : lexeme (ds ++ rest) = word (ds ++ rest) := by
  have ⟨c, cs, hds, hc⟩ := h.begins
  rw [hds, List.cons_append, lexeme_of_isAlpha hc]

theorem lexeme_delimiter : lexeme (q.delimiter :: cs) = (quotation q [] cs).cons q.delimiter := by
  cases q <;> rfl

theorem lexeme_of_isNumeral (h : IsNumeral ds) :
    lexeme (ds ++ rest) = number false [] (ds ++ rest) := by
  rcases h.begins with ⟨c, ds, rfl, hc⟩ | ⟨c, ds, rfl, hc⟩
  · have hn : ∀ d : Char, d.isDigit = false → c ≠ d := by
      rintro d hd rfl
      cases hc.symm.trans hd
    simp [lexeme, Quotation.delimiter, hc, hn '\n' (by decide), hn ';' (by decide),
      hn '"' (by decide), hn '\x60' (by decide)]
  · simp [lexeme, Quotation.delimiter, hc]

theorem lexeme_of_single? (h : Symbol.single? c = some s) : lexeme (c :: cs) = symbol c cs := by
  unfold Symbol.single? at h
  split at h <;> first | rfl | cases h

theorem lexeme_of_pair? {d : Char} (h : Symbol.pair? c d = some s) :
    lexeme (c :: cs) = symbol c cs := by
  unfold Symbol.pair? at h
  split at h <;> first | rfl | cases h

theorem symbol_of_pair? {d : Char} (h : Symbol.pair? c d = some s) :
    symbol c (d :: cs) = ⟨.ok (.symbol s), [c, d], cs⟩ := by
  simp [symbol, h]

theorem symbol_of_single? (h : Symbol.single? c = some s)
    (hp : ∀ d ∈ cs.head?, Symbol.pair? c d = none) :
    symbol c cs = ⟨.ok (.symbol s), [c], cs⟩ := by
  have hn : cs.head?.bind (Symbol.pair? c) = none := by
    cases cs
    case nil => rfl
    case cons d _ => exact hp d rfl
  simp [symbol, h, hn]

theorem one_le_taken_symbol (h : Symbol.single? c = some s) : 1 ≤ (symbol c cs).taken.length := by
  unfold symbol
  split
  case h_1 => simp
  case h_2 => simp [h]

theorem length_le_taken (h : Lexeme k ds) (rest : List Char) :
    ds.length ≤ (lexeme (ds ++ rest)).taken.length := by
  cases h
  case separator hc => simp [lexeme, hc]
  case keyword k =>
    rw [lexeme_of_isWord k.isWord_spelling]
    exact length_le_taken_word k.isWord_spelling.chars rest
  case word hw _ =>
    rw [lexeme_of_isWord hw]
    exact length_le_taken_word hw.chars rest
  case number hn =>
    rw [lexeme_of_isNumeral hn, number_of_chars hn.chars (by simpa using hn.points)]
    simp
  case quoted hb =>
    rw [List.cons_append, List.append_assoc, List.singleton_append, lexeme_delimiter,
      quotation_of_isBody hb]
    simp [Scan.cons]
  case symbol s =>
    rcases s.toList_spelling with ⟨c, hs, h⟩ | ⟨c, d, hs, h⟩
    · rw [hs, List.singleton_append, lexeme_of_single? h]
      exact one_le_taken_symbol h
    · rw [hs, List.cons_append, List.singleton_append, lexeme_of_pair? h, symbol_of_pair? h]

theorem lexeme_of_word (h : IsWord ds) :
    Lexeme (((Keyword.ofSpelling? (.ofList ds)).map Kind.keyword).getD (.word (.ofList ds)))
      ds := by
  cases hk : Keyword.ofSpelling? (.ofList ds)
  case none => exact .word h (Keyword.ofSpelling?_eq_none_iff.mp hk)
  case some k =>
    have hs := congrArg String.toList (Keyword.spelling_of_ofSpelling? hk)
    rw [String.toList_ofList] at hs
    exact hs ▸ .keyword k

-- A lexeme that does not go on with the next character. No character further on matters.
structure Complete (k : Kind) (cs rest : List Char) : Prop where
  lexeme : Lexeme k cs
  next   : ∀ c ∈ rest.head?, ∀ k', ¬Lexeme k' (cs ++ [c])
  number : ∀ text, k = .number text → ∀ c ∈ rest.head?, c ≠ '.' ∧ Text.isAlphabetic c = false

theorem complete_of_longest (h : Longest k ds rest) : Complete k ds rest where
  lexeme := h.lexeme
  next c hc k' hl := by
    have ⟨cs, hcs⟩ := List.head?_eq_some_iff.mp hc
    have := h.longest _ _ hl ⟨cs, by simp [hcs]⟩
    rw [List.length_append, List.length_singleton] at this
    omega
  number := h.number

theorem word_of_complete (h : Complete k ds rest) (hw : IsWord ds) :
    word (ds ++ rest) =
      ⟨.ok (((Keyword.ofSpelling? (.ofList ds)).map Kind.keyword).getD (.word (.ofList ds))),
        ds, rest⟩ := by
  refine word_of_chars hw.chars fun c hc => ?_
  by_contra hn
  exact h.next c hc _ (lexeme_of_word (hw.concat (by simpa using hn)))

theorem lexeme_of_complete (h : Complete k ds rest) : lexeme (ds ++ rest) = ⟨.ok k, ds, rest⟩ := by
  have hl := h.lexeme
  cases hl
  case separator hc => simp [lexeme, hc]
  case keyword k =>
    rw [lexeme_of_isWord k.isWord_spelling, word_of_complete h k.isWord_spelling]
    simp [Keyword.ofSpelling?_spelling]
  case word hw hk =>
    rw [lexeme_of_isWord hw, word_of_complete h hw, Keyword.ofSpelling?_eq_none_iff.mpr hk]
    rfl
  case number hn =>
    have hd (c : Char) (hc : c ∈ rest.head?) : c.isDigit = false := by
      by_contra hd
      exact h.next c hc _ (.number (hn.concat (by simpa using hd)))
    rw [lexeme_of_isNumeral hn, number_of_chars hn.chars (by simpa using hn.points), number_done]
    · simp
    · exact fun c hc => ⟨hd c hc, h.number _ rfl c hc⟩
  case quoted hb =>
    rw [List.cons_append, List.append_assoc, List.singleton_append, lexeme_delimiter,
      quotation_of_isBody hb]
    rfl
  case symbol s =>
    rcases s.toList_spelling with ⟨c, hs, hc⟩ | ⟨c, d, hs, hcd⟩
    · rw [hs, List.singleton_append, lexeme_of_single? hc, symbol_of_single? hc]
      intro d hd
      by_contra hn
      obtain ⟨s', hs'⟩ := Option.ne_none_iff_exists'.mp hn
      have hl := Lexeme.symbol s'
      rw [Symbol.spelling_of_pair? hs', String.toList_ofList] at hl
      exact h.next d hd _ (by rwa [hs])
    · rw [hs, List.cons_append, List.singleton_append, lexeme_of_pair? hcd, symbol_of_pair? hcd]

theorem longest_of_complete (h : Complete k ds rest) : Longest k ds rest where
  lexeme := h.lexeme
  longest k' cs hl hp := by
    have ⟨tail, ht⟩ := hp
    have := length_le_taken hl tail
    rwa [ht, lexeme_of_complete h] at this
  number := h.number

theorem symbol_of_result (h : (symbol c cs).result = .ok k) :
    ∃ s, k = .symbol s ∧ (symbol c cs).taken = s.spelling.toList := by
  revert h
  unfold symbol
  split
  case h_1 s hs =>
    rintro ⟨⟩
    have ⟨d, hd, hp⟩ := Option.bind_eq_some_iff.mp hs
    have ⟨ds, hds⟩ := List.head?_eq_some_iff.mp hd
    exact ⟨s, rfl, by simp [Symbol.spelling_of_pair? hp, hds]⟩
  case h_2 =>
    split
    case h_1 s hs =>
      rintro ⟨⟩
      exact ⟨s, rfl, by simp [Symbol.spelling_of_single? hs]⟩
    case h_2 => split <;> nofun

theorem lexeme_of_result (hcs : cs ≠ []) (h : (lexeme cs).result = .ok k) :
    Lexeme k (lexeme cs).taken ∧ ∀ text, k = .number text →
      ∀ c ∈ (lexeme cs).rest.head?, c ≠ '.' ∧ Text.isAlphabetic c = false := by
  have hq {q : Quotation} {ds : List Char} (h : (quotation q [] ds).result = .ok k) :
      Lexeme k (q.delimiter :: (quotation q [] ds).taken) ∧ ∀ text, k ≠ .number text := by
    obtain ⟨body, hb, hk, ht⟩ := isBody_of_quotation h
    rw [hk, ht]
    exact ⟨.quoted hb, by simp⟩
  cases cs
  case nil => exact absurd rfl hcs
  case cons c cs =>
    clear hcs
    revert h
    rw [lexeme]
    split
    case isTrue hc =>
      rintro ⟨⟩
      exact ⟨.separator hc, by simp⟩
    split
    case isTrue hc =>
      intro h
      exact ⟨hc ▸ (hq h).1, fun text ht => absurd ht ((hq h).2 text)⟩
    split
    case isTrue hc =>
      intro h
      exact ⟨hc ▸ (hq h).1, fun text ht => absurd ht ((hq h).2 text)⟩
    split
    case isTrue hc =>
      intro h
      obtain ⟨hd, hp, hk, hr⟩ := chars_of_number h
      rw [hk]
      exact ⟨.number ⟨hd, by simpa using hp, begins_of_number hc⟩, fun _ _ c hc => (hr c hc).2⟩
    split
    case isTrue hc =>
      rintro ⟨⟩
      refine ⟨lexeme_of_word ⟨fun d hd => List.mem_takeWhile_imp hd, ?_⟩, ?_⟩
      · exact ⟨c, cs.takeWhile isWordChar, by simp [isWordChar, Char.isAlphanum, hc], hc⟩
      · cases Keyword.ofSpelling? (.ofList ((c :: cs).takeWhile isWordChar)) <;> simp
    case isFalse =>
      intro h
      obtain ⟨s, hs, ht⟩ := symbol_of_result h
      rw [hs, ht]
      exact ⟨.symbol s, by simp⟩

theorem longest_of_lexeme (hcs : cs ≠ []) (h : (lexeme cs).result = .ok k) :
    Longest k (lexeme cs).taken (lexeme cs).rest where
  lexeme := (lexeme_of_result hcs h).1
  longest k' ds hl hp := by
    rw [lexeme_append] at hp
    have ⟨rest, hr⟩ := hp
    exact hr ▸ length_le_taken hl rest
  number := (lexeme_of_result hcs h).2

end Lexemes

section Texts

variable {l l' : Lexer} {t : Token} {ts : List Token} {before : List Char}

theorem tokens_of_next (h : l.next = (.ok t, l')) :
    l.tokens = if t.kind = .eof then .ok [t] else l'.tokens.map (t :: ·) := by
  rw [tokens]
  split
  case h_1 he => cases h.symm.trans he
  case h_2 ht =>
    cases h.symm.trans ht
    split <;> rfl

theorem tokens_of_next_error {e : LexicalError} (h : l.next = (.error e, l')) :
    l.tokens = .error e := by
  rw [tokens]
  split
  case h_1 he =>
    cases h.symm.trans he
    rfl
  case h_2 ht => cases h.symm.trans ht

theorem next_of_gap (hg : Gap rest ds) (hk : (lexeme rest).result = .ok k) (before : List Char) :
    (⟨ds ++ rest, .following before⟩ : Lexer).next =
      (.ok ⟨k, .following (before ++ ds)⟩,
        ⟨(lexeme rest).rest, .following (before ++ ds ++ (lexeme rest).taken)⟩) := by
  simp only [next, gap_eq_of_gap hg, hk, Location.following_append]

theorem tokens_of_analysis (h : Analysis before text ts) :
    (⟨text, .following before⟩ : Lexer).tokens = .ok ts := by
  induction h
  case done gap before hg =>
    have hn := next_of_gap hg (k := .eof) rfl before
    rw [List.append_nil] at hn
    rw [tokens_of_next hn, if_pos rfl]
  case token cs rest gap k before ts hg hl _ ih =>
    have hx := lexeme_of_complete (complete_of_longest hl)
    have hn := next_of_gap hg (congrArg Scan.result hx) before
    have hk : k ≠ .eof := by
      rintro rfl
      exact nomatch hl.lexeme
    rw [hx] at hn
    rw [List.append_assoc, tokens_of_next hn, if_neg hk, ih]
    rfl

theorem next_eq_ok (h : l.next = (.ok t, l')) (hl : l.location = .following before) :
    (lexeme (gap false l.rest).2).result = .ok t.kind ∧
    t = ⟨t.kind, .following (before ++ (gap false l.rest).1)⟩ ∧
    l'.rest = (lexeme (gap false l.rest).2).rest ∧
    l'.location =
      .following (before ++ (gap false l.rest).1 ++ (lexeme (gap false l.rest).2).taken) := by
  simp only [next, hl] at h
  split at h
  case h_2 => cases h
  case h_1 k hk =>
    cases h
    refine ⟨hk, ?_, rfl, ?_⟩ <;> simp only [Location.following_append]

theorem analysis_of_tokens (h : l.tokens = .ok ts) (hl : l.location = .following before) :
    Analysis before l.rest ts := by
  fun_induction tokens l generalizing ts before
  case case1 => cases h
  case case2 l t _ hn hk =>
    have ⟨hx, ht, _, _⟩ := next_eq_ok hn hl
    have hg := gap_of_gap l.rest
    have ha := gap_append false l.rest
    have hr : (gap false l.rest).2 = [] := by
      by_contra hne
      rw [hk] at hx
      exact nomatch (longest_of_lexeme hne hx).lexeme
    cases h
    rw [hr] at hg
    rw [hr, List.append_nil] at ha
    have := @Analysis.done _ before hg
    rw [ha] at this
    rwa [ht, hk, ha]
  case case3 l t l' hn hk ih =>
    have ⟨hx, ht, hr, hl'⟩ := next_eq_ok hn hl
    have hg := gap_of_gap l.rest
    have hne : (gap false l.rest).2 ≠ [] := by
      intro hne
      rw [hne] at hx
      exact hk (Except.ok.inj hx).symm
    cases hts : l'.tokens
    all_goals rw [hts] at h
    all_goals cases h
    rw [← lexeme_append (gap false l.rest).2] at hg
    have := Analysis.token hg (longest_of_lexeme hne hx) (hr ▸ ih hts hl')
    rw [List.append_assoc, lexeme_append, gap_append] at this
    rwa [ht]

end Texts

end Lexer

variable {source : String} {ts : List Token}

theorem tokenize_of_analysis (h : Analysis [] source.toList ts) : tokenize source = .ok ts :=
  Lexer.tokens_of_analysis h

theorem analysis_of_tokenize (h : tokenize source = .ok ts) : Analysis [] source.toList ts :=
  Lexer.analysis_of_tokens h rfl

-- A source has tokens just when it is made of gaps and lexemes, and then they are its tokens.
theorem tokenize_eq_ok_iff (source : String) (ts : List Token) :
    tokenize source = .ok ts ↔ Analysis [] source.toList ts :=
  ⟨analysis_of_tokenize, tokenize_of_analysis⟩

end PatternAction
