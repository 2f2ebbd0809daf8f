import PatternAction.Format
import PatternAction.Proofs.Number.Literal
import PatternAction.Proofs.Text.Pieces

namespace PatternAction

namespace Directive

def isFlag (c : Char) : Bool := c ∈ ['-', '+', ' ', '#', '0']

-- A directive as it is written after the percent sign: the longest run of flags, the longest run of
-- digits, if a point follows that and the longest run of digits after it, and one more character.
structure Parts where
  flags      : List Char
  width      : List Char
  places?    : Option (List Char)
  conversion : Char
  isFlag     : ∀ c ∈ flags, isFlag c
  isDigit    : ∀ c ∈ width ++ places?.getD [], c.isDigit
  notFlag    : ∀ c ∈ (width ++ (places?.elim [] ('.' :: ·) ++ [conversion])).head?,
                 Directive.isFlag c = false
  notDigit   : conversion.isDigit = false
  notPoint   : places? = none → conversion ≠ '.'

namespace Parts

variable (p : Parts)

def tail : List Char := p.places?.elim [] ('.' :: ·) ++ [p.conversion]

def chars : List Char := p.flags ++ (p.width ++ p.tail)

def bare (c : Char) (hf : Directive.isFlag c = false) (hd : c.isDigit = false) (hp : c ≠ '.') :
    Parts where
  flags      := []
  width      := []
  places?    := none
  conversion := c
  isFlag     := by simp
  isDigit    := by simp
  notFlag    := by simpa using hf
  notDigit   := hd
  notPoint _ := hp

def directive : Directive where
  left      := '-' ∈ p.flags
  plus      := '+' ∈ p.flags
  space     := ' ' ∈ p.flags
  alternate := '#' ∈ p.flags
  zero      := '0' ∈ p.flags
  width     := count p.width
  precision := p.places?.map count

end Parts

section Scanning

variable {d : Directive} {fs rest : List Char} {c : Char}

def flagged (d : Directive) (fs : List Char) : Directive :=
  { d with
    left      := d.left || '-' ∈ fs
    plus      := d.plus || '+' ∈ fs
    space     := d.space || ' ' ∈ fs
    alternate := d.alternate || '#' ∈ fs
    zero      := d.zero || '0' ∈ fs }

theorem flagged_nil : d.flagged [] = d := by
  simp [flagged]

theorem flagged_flagged : (d.flagged [c]).flagged fs = d.flagged (c :: fs) := by
  simp [flagged, Bool.or_assoc]

theorem flag?_of_isFlag (h : isFlag c) : d.flag? c = some (d.flagged [c]) := by
  simp only [isFlag, List.mem_cons, List.not_mem_nil, or_false, decide_eq_true_eq] at h
  rcases h with rfl | rfl | rfl | rfl | rfl
  all_goals simp [flag?, flagged]

theorem flag?_of_not_isFlag (h : isFlag c = false) : d.flag? c = none := by
  unfold flag?
  split
  case h_6 => rfl
  all_goals cases h

theorem flags_append (hf : ∀ c ∈ fs, isFlag c) (hr : ∀ c ∈ rest.head?, isFlag c = false) :
    d.flags (fs ++ rest) = (d.flagged fs, rest) := by
  induction fs generalizing d
  case nil =>
    rw [List.nil_append, flagged_nil]
    cases rest
    case nil => rfl
    case cons c cs => rw [flags, flag?_of_not_isFlag (hr c rfl)]
  case cons c cs ih =>
    obtain ⟨hc, hf⟩ := List.forall_mem_cons.mp hf
    rw [List.cons_append, flags, flag?_of_isFlag hc]
    exact (ih hf).trans (by rw [flagged_flagged])

end Scanning

namespace Parts

variable (p : Parts) (rest : List Char)

theorem isDigit_width : ∀ c ∈ p.width, c.isDigit := fun c hc =>
  p.isDigit c (List.mem_append_left _ hc)

theorem isDigit_places {ps : List Char} (h : p.places? = some ps) : ∀ c ∈ ps, c.isDigit :=
  fun c hc => p.isDigit c (List.mem_append_right _ (by rwa [h]))

theorem head?_tail : ∀ c ∈ (p.tail ++ rest).head?, c.isDigit = false := by
  intro c hc
  unfold tail at hc
  cases h : p.places?
  case none =>
    rw [h] at hc
    exact Option.some.inj hc ▸ p.notDigit
  case some ps =>
    rw [h] at hc
    exact Option.some.inj hc ▸ rfl

theorem head?_width : ∀ c ∈ (p.width ++ (p.tail ++ rest)).head?, Directive.isFlag c = false := by
  intro c hc
  refine p.notFlag c ?_
  rwa [← List.append_assoc, List.head?_append_of_ne_nil _ (by simp [tail])] at hc

theorem chars_ne_nil : p.chars ≠ [] := by
  simp [chars, tail]

theorem head?_chars (h : p.chars ≠ ['%']) : p.chars.head? ≠ some '%' := by
  intro hc
  rw [chars] at h hc
  cases hf : p.flags
  case cons c cs =>
    rw [hf] at hc
    have hi := p.isFlag c (hf ▸ .head _)
    cases Option.some.inj hc
    cases hi
  case nil =>
    rw [hf, List.nil_append] at h hc
    cases hw : p.width
    case cons c cs =>
      rw [hw] at hc
      have hi := p.isDigit_width c (hw ▸ .head _)
      cases Option.some.inj hc
      cases hi
    case nil =>
      rw [hw, List.nil_append, tail] at h hc
      cases hp : p.places?
      case some ps =>
        rw [hp] at hc
        cases hc
      case none =>
        rw [hp] at h hc
        exact h (congrArg ([·]) (Option.some.inj hc))

theorem scan_chars : scan (p.chars ++ rest) = (p.directive, p.conversion :: rest) := by
  have hf : Directive.flags {} (p.chars ++ rest) =
      (flagged {} p.flags, p.width ++ (p.tail ++ rest)) := by
    rw [chars, List.append_assoc, List.append_assoc]
    exact flags_append p.isFlag (p.head?_width rest)
  have ht := takeWhile_digits p.isDigit_width (p.head?_tail rest)
  have hd := dropWhile_digits p.isDigit_width (p.head?_tail rest)
  unfold scan
  rw [hf]
  dsimp only
  rw [ht, hd]
  unfold tail directive
  cases h : p.places?
  case none =>
    have hn := p.notPoint h
    rw [Option.elim_none, List.nil_append, List.singleton_append]
    split
    case h_1 hc => exact absurd (List.cons.inj hc).1 hn
    case h_2 => simp [flagged]
  case some ps =>
    have hr : ∀ c ∈ (p.conversion :: rest).head?, c.isDigit = false := by
      rintro c ⟨⟩
      exact p.notDigit
    rw [Option.elim_some, List.cons_append, List.cons_append, List.append_assoc,
      List.singleton_append]
    split
    case h_2 hc => exact absurd rfl (hc _)
    case h_1 hc =>
      cases hc
      rw [takeWhile_digits (p.isDigit_places h) hr, dropWhile_digits (p.isDigit_places h) hr]
      simp [flagged]

end Parts

section Completeness

variable {cs ds : List Char}

theorem exists_flags (d : Directive) (cs : List Char) :
    ∃ fs, fs ++ (d.flags cs).2 = cs ∧ (∀ c ∈ fs, isFlag c) ∧
      ∀ c ∈ (d.flags cs).2.head?, isFlag c = false := by
  induction cs generalizing d
  case nil => exact ⟨[], rfl, by simp, by simp [flags]⟩
  case cons c cs ih =>
    cases hc : isFlag c
    case true =>
      obtain ⟨fs, he, hf, hr⟩ := ih (d.flagged [c])
      rw [flags, flag?_of_isFlag hc]
      exact ⟨c :: fs, congrArg (c :: ·) he, List.forall_mem_cons.mpr ⟨hc, hf⟩, hr⟩
    case false =>
      rw [flags, flag?_of_not_isFlag hc]
      exact ⟨[], rfl, by simp, fun _ h => Option.some.inj h ▸ hc⟩

theorem exists_digits (cs : List Char) :
    ∃ ds rest, ds ++ rest = cs ∧ (∀ c ∈ ds, c.isDigit) ∧ ∀ c ∈ rest.head?, c.isDigit = false :=
  ⟨_, _, List.takeWhile_append_dropWhile, fun _ h => List.mem_takeWhile_imp h, fun _ =>
    Text.head?_dropWhile⟩

-- A directive without its conversion, after the percent sign.
def BreaksOff (cs : List Char) : Prop :=
  ∃ (fs ds : List Char) (ps : Option (List Char)), fs ++ (ds ++ ps.elim [] ('.' :: ·)) = cs ∧
    (∀ c ∈ fs, isFlag c) ∧ ∀ c ∈ ds ++ ps.getD [], c.isDigit

theorem scan_breaksOff (ps : Option (List Char))
    (h : (flags {} cs).2 = ds ++ ps.elim [] ('.' :: ·)) (hd : ∀ c ∈ ds ++ ps.getD [], c.isDigit) :
    (scan cs).2 = [] := by
  obtain ⟨hd, hp⟩ := List.forall_mem_append.mp hd
  have hr : ∀ c ∈ (ps.elim [] ('.' :: ·)).head?, c.isDigit = false := by
    cases ps <;> rintro c ⟨⟩
    rfl
  unfold scan
  dsimp only
  rw [h, dropWhile_digits hd hr]
  cases ps
  case none => rfl
  case some ps => exact List.dropWhile_eq_nil_iff.mpr hp

theorem scan_cases (cs : List Char) :
    ((scan cs).2 = [] ∧ BreaksOff cs) ∨ ∃ (p : Parts) (rest : List Char), p.chars ++ rest = cs := by
  obtain ⟨fs, hr, hf, hn⟩ := exists_flags {} cs
  obtain ⟨ds, r, he, hw, hd⟩ := exists_digits (flags {} cs).2
  rw [← he] at hr hn
  replace he := he.symm
  have hw' : ∀ c ∈ ds ++ [], c.isDigit := by rwa [List.append_nil]
  rcases r with _ | ⟨c, cs⟩
  case nil => exact .inl ⟨scan_breaksOff none he hw', fs, ds, none, hr, hf, hw'⟩
  case cons =>
    by_cases hc : c = '.'
    case neg =>
      have hn : ∀ x ∈ (ds ++ [c]).head?, isFlag x = false := by
        cases ds <;> exact hn
      refine .inr ⟨⟨fs, ds, none, c, hf, hw', hn, hd c rfl, fun _ => hc⟩, cs, ?_⟩
      rw [← hr]
      simp [Parts.chars, Parts.tail]
    case pos =>
      subst hc
      obtain ⟨ps, r, rfl, hp, hq⟩ := exists_digits cs
      have hw : ∀ c ∈ ds ++ ps, c.isDigit := List.forall_mem_append.mpr ⟨hw, hp⟩
      rcases r with _ | ⟨c, rest⟩
      case nil =>
        rw [List.append_nil] at he hr
        exact .inl ⟨scan_breaksOff (some ps) he hw, fs, ds, some ps, hr, hf, hw⟩
      case cons =>
        have hn : ∀ x ∈ (ds ++ ('.' :: ps ++ [c])).head?, isFlag x = false := by
          cases ds <;> exact hn
        have hp : some ps = none → c ≠ '.' := fun h => by cases h
        refine .inr ⟨⟨fs, ds, some ps, c, hf, hw, hn, hq c rfl, hp⟩, rest, ?_⟩
        rw [← hr]
        simp [Parts.chars, Parts.tail]

end Completeness

end Directive

section Equations

variable {c : Char} {cs rest : List Char} {args : List Value} {d : Directive}

theorem formatChars_nil : formatChars [] args = [] := by
  rw [formatChars]

theorem formatChars_plain (h : c ≠ '%') :
    formatChars (c :: cs) args = c :: formatChars cs args := by
  rw [formatChars, if_pos h]

theorem formatChars_percent :
    formatChars ('%' :: '%' :: cs) args = '%' :: formatChars cs args := by
  rw [formatChars, if_neg (not_not.mpr rfl), if_pos (List.head?_cons ..)]
  rfl

theorem formatChars_scan (hn : cs.head? ≠ some '%') (h : Directive.scan cs = (d, c :: rest)) :
    formatChars ('%' :: cs) args =
      d.render c (args.headD .empty) ++ formatChars rest args.tail := by
  rw [formatChars, if_neg (not_not.mpr rfl), if_neg hn]
  split
  case h_1 hs => cases h.symm.trans hs
  case h_2 hs =>
    cases h.symm.trans hs
    rfl

theorem formatChars_breaksOff (hn : cs.head? ≠ some '%') (h : (Directive.scan cs).2 = []) :
    formatChars ('%' :: cs) args = ['%'] := by
  rw [formatChars, if_neg (not_not.mpr rfl), if_neg hn]
  split
  case h_1 => rfl
  case h_2 hs =>
    rw [hs] at h
    cases h

end Equations

-- What a format is made of.
inductive Segment
  | char (c : Char) (h : c ≠ '%')
  | percent
  | directive (p : Directive.Parts) (h : p.chars ≠ ['%'])

namespace Segment

def chars : Segment → List Char
  | char c _      => [c]
  | percent       => ['%', '%']
  | directive p _ => '%' :: p.chars

def takes : Segment → ℕ
  | directive .. => 1
  | _            => 0

def render : Segment → Value → List Char
  | char c _, _      => [c]
  | percent, _       => ['%']
  | directive p _, v => p.directive.render p.conversion v

def text (ss : List Segment) : String := String.ofList (ss.flatMap chars)

def directives (ss : List Segment) : ℕ := (ss.map takes).sum

-- One segment after the other, with a missing argument counting as empty.
def written : List Segment → List Value → List Char
  | [], _ => []
  | s :: ss, args => s.render (args.headD .empty) ++ written ss (args.drop s.takes)

variable {ss : List Segment} {cs : List Char} {args : List Value}

theorem length_chars_pos (s : Segment) : 0 < s.chars.length := by
  cases s <;> exact Nat.succ_pos _

theorem formatChars_chars (s : Segment) :
    formatChars (s.chars ++ cs) args =
      s.render (args.headD .empty) ++ formatChars cs (args.drop s.takes) := by
  cases s
  case char c h => exact formatChars_plain h
  case percent => exact formatChars_percent
  case directive p h =>
    have hn : (p.chars ++ cs).head? ≠ some '%' := by
      rw [List.head?_append_of_ne_nil _ p.chars_ne_nil]
      exact p.head?_chars h
    rw [takes, List.drop_one]
    exact formatChars_scan hn (p.scan_chars cs)

theorem formatChars_segments :
    formatChars (ss.flatMap chars ++ cs) args =
      written ss args ++ formatChars cs (args.drop (directives ss)) := by
  induction ss generalizing args
  case nil => rfl
  case cons s ss ih =>
    rw [List.flatMap_cons, List.append_assoc, formatChars_chars, ih, written, List.append_assoc,
      List.drop_drop, directives, directives, List.map_cons, List.sum_cons]

theorem exists_segments (cs : List Char) :
    ∃ (ss : List Segment) (rest : List Char), ss.flatMap chars ++ rest = cs ∧
      (rest = [] ∨ ∃ r, rest = '%' :: r ∧ (Directive.scan r).2 = [] ∧ Directive.BreaksOff r) := by
  induction hl : cs.length using Nat.strong_induction_on generalizing cs
  case h n ih =>
    -- A segment at the front is followed by a shorter text.
    have step (s : Segment) {r : List Char} (h : s.chars ++ r = cs) :
        ∃ (ss : List Segment) (rest : List Char), ss.flatMap chars ++ rest = cs ∧ (rest = [] ∨
          ∃ r, rest = '%' :: r ∧ (Directive.scan r).2 = [] ∧ Directive.BreaksOff r) := by
      have hlt : r.length < n := by
        rw [← hl, ← h, List.length_append]
        exact Nat.lt_add_of_pos_left s.length_chars_pos
      obtain ⟨ss, rest, hs, hr⟩ := ih _ hlt r rfl
      exact ⟨s :: ss, rest, by rw [List.flatMap_cons, List.append_assoc, hs, h], hr⟩
    rcases cs with _ | ⟨c, cs⟩
    case nil => exact ⟨[], [], rfl, .inl rfl⟩
    case cons =>
      by_cases hc : c = '%'
      case neg => exact step (.char c hc) rfl
      case pos =>
        subst hc
        rcases Directive.scan_cases cs with hb | ⟨p, rest, rfl⟩
        · exact ⟨[], '%' :: cs, rfl, .inr ⟨cs, rfl, hb⟩⟩
        · by_cases hp : p.chars = ['%']
          case neg => exact step (.directive p hp) rfl
          case pos => exact step .percent (by rw [hp]; rfl)

end Segment

section Formats

variable {cs : List Char} {args : List Value}

theorem Directive.BreaksOff.head?_ne (h : BreaksOff cs) : cs.head? ≠ some '%' := by
  obtain ⟨fs, ds, ps, rfl, hf, hd⟩ := h
  have hm : ∀ c ∈ fs ++ (ds ++ ps.elim [] ('.' :: ·)), isFlag c ∨ c.isDigit ∨ c = '.' := by
    intro c hc
    rcases List.mem_append.mp hc with hc | hc
    · exact .inl (hf c hc)
    rcases List.mem_append.mp hc with hc | hc
    · exact .inr (.inl (hd c (List.mem_append_left _ hc)))
    · cases ps
      case none => cases hc
      case some ps =>
        refine .inr ((List.mem_cons.mp hc).symm.imp_left fun hc => ?_)
        exact hd c (List.mem_append_right _ hc)
  intro hc
  rcases hm '%' (List.mem_of_head? hc) with h | h | h <;> cases h

section Missing

variable (args : List Value) (n : ℕ)

theorem headD_replicate :
    (args ++ List.replicate n Value.empty).headD .empty = args.headD .empty := by
  cases args
  case nil => cases n <;> rfl
  case cons => rfl

theorem exists_tail_replicate :
    ∃ k, (args ++ List.replicate n Value.empty).tail = args.tail ++ List.replicate k .empty := by
  cases args
  case nil => exact ⟨n - 1, by simp⟩
  case cons => exact ⟨n, rfl⟩

theorem formatChars_replicate (cs : List Char) :
    formatChars cs (args ++ List.replicate n .empty) = formatChars cs args := by
  induction cs, args using formatChars.induct generalizing n
  case case1 => rw [formatChars_nil, formatChars_nil]
  case case2 h ih => rw [formatChars_plain h, formatChars_plain h, ih]
  case case3 c cs args h hp ih =>
    obtain rfl := not_not.mp h
    obtain ⟨cs, rfl⟩ := List.head?_eq_some_iff.mp hp
    rw [formatChars_percent, formatChars_percent]
    exact congrArg _ (ih n)
  case case4 h hn _ hs =>
    obtain rfl := not_not.mp h
    have hs := congrArg Prod.snd hs
    rw [formatChars_breaksOff hn hs, formatChars_breaksOff hn hs]
  case case5 args h hn d c rest hs ih =>
    obtain rfl := not_not.mp h
    obtain ⟨k, hk⟩ := exists_tail_replicate args n
    rw [formatChars_scan hn hs, formatChars_scan hn hs, headD_replicate, hk, ih]

end Missing

def doubled (t : String) : String :=
  String.ofList (t.toList.flatMap fun c => if c = '%' then ['%', '%'] else [c])

theorem formatChars_doubled (cs : List Char) (args : List Value) :
    formatChars (cs.flatMap fun c => if c = '%' then ['%', '%'] else [c]) args = cs := by
  induction cs
  case nil => exact formatChars_nil
  case cons c cs ih =>
    rw [List.flatMap_cons]
    split
    case isTrue h =>
      subst h
      exact formatChars_percent.trans (congrArg _ ih)
    case isFalse h => exact (formatChars_plain h).trans (congrArg _ ih)

namespace Segment

variable (ss : List Segment) (args : List Value)

theorem format_append (g : String) : format (text ss ++ g) args =
    String.ofList (written ss args) ++ format g (args.drop (directives ss)) := by
  rw [format, text, String.toList_append, String.toList_ofList, formatChars_segments,
    String.ofList_append]
  rfl

theorem format_text : format (text ss) args = String.ofList (written ss args) := by
  rw [format, text, String.toList_ofList, ← List.append_nil (ss.flatMap chars),
    formatChars_segments, formatChars_nil, List.append_nil]

end Segment

namespace Directive.Parts

variable (p : Parts)

theorem chars_ne (h : p.conversion ≠ '%') : p.chars ≠ ['%'] := by
  intro he
  have hl := congrArg List.getLast? he
  simp only [chars, tail, List.getLast?_append, List.getLast?_singleton, Option.some_or,
    Option.some.injEq] at hl
  exact h hl

def field (v : Value) : String := format (String.ofList ('%' :: p.chars)) [v]

theorem field_eq (h : p.conversion ≠ '%') (v : Value) :
    p.field v = String.ofList (p.directive.render p.conversion v) := by
  have hs : String.ofList ('%' :: p.chars) = Segment.text [.directive p (p.chars_ne h)] := by
    rw [Segment.text, List.flatMap_singleton]
    rfl
  rw [field, hs, Segment.format_text, Segment.written, Segment.written, List.append_nil]
  rfl

end Directive.Parts

end Formats

-- A format of segments is followed by another one as if that stood alone, with the arguments that
-- are left. A missing argument counts as an empty one. A text is written by the format that has
-- each of its percent signs twice. And every format is one of segments, but for a directive that
-- breaks off at its end.
theorem format_composed :
    (∀ (ss : List Segment) (g : String) (args : List Value),
      format (Segment.text ss ++ g) args =
        format (Segment.text ss) args ++ format g (args.drop (Segment.directives ss))) ∧
    (∀ (f : String) (args : List Value) (n : ℕ),
      format f (args ++ List.replicate n .empty) = format f args) ∧
    (∀ (t : String) (args : List Value), format (doubled t) args = t) ∧
    ∀ f : String, ∃ (ss : List Segment) (rest : String), Segment.text ss ++ rest = f ∧
      (rest = "" ∨ ∃ r, rest = String.ofList ('%' :: r) ∧ Directive.BreaksOff r ∧
        ∀ args, format rest args = "%") := by
  refine ⟨fun ss g args => ?_, fun f args n => ?_, fun t args => ?_, fun f => ?_⟩
  · rw [Segment.format_append, Segment.format_text]
  · exact congrArg String.ofList (formatChars_replicate args n f.toList)
  · rw [format, doubled, String.toList_ofList, formatChars_doubled, String.ofList_toList]
  · obtain ⟨ss, rest, hs, hr⟩ := Segment.exists_segments f.toList
    refine ⟨ss, String.ofList rest, ?_, hr.imp (congrArg String.ofList) ?_⟩
    · rw [Segment.text, ← String.ofList_append, hs, String.ofList_toList]
    · rintro ⟨r, rfl, hb, hd⟩
      refine ⟨r, rfl, hd, fun args => ?_⟩
      rw [format, String.toList_ofList, formatChars_breaksOff hd.head?_ne hb]

end PatternAction
