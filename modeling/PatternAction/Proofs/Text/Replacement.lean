import PatternAction.Proofs.Text.Substitution

namespace PatternAction

variable {matched r : List Char} {before : Option Char}

-- A text with a backslash before each ampersand.
def shielded (r : List Char) : List Char :=
  r.flatMap fun c => if c = '&' then ['\\', '&'] else [c]

theorem shielded_ampersand (r : List Char) : shielded ('&' :: r) = '\\' :: '&' :: shielded r := rfl

theorem shielded_cons {c : Char} (h : c ≠ '&') (r : List Char) :
    shielded (c :: r) = c :: shielded r := by
  rw [shielded, List.flatMap_cons, if_neg h]
  rfl

theorem head?_shielded : (shielded r).head? ≠ some '&' := by
  cases r
  case nil => nofun
  case cons c cs =>
    by_cases hc : c = '&'
    case pos =>
      rw [hc, shielded_ampersand, List.head?_cons]
      decide
    case neg =>
      rw [shielded_cons hc, List.head?_cons]
      exact fun h => hc (Option.some.inj h)

-- An ampersand finds the backslash that was written for it, and no backslash of the text itself
-- stands right before an ampersand any more.
theorem filled_shielded : filled matched before (shielded r) = r := by
  induction r generalizing before
  case nil => rfl
  case cons c cs ih =>
    by_cases hc : c = '&'
    case pos =>
      rw [hc, shielded_ampersand, filled, filled, ih]
      simp [standsFor]
    case neg =>
      have hs : ¬(c = '\\' ∧ (shielded cs).head? = some '&') := fun h => head?_shielded h.2
      rw [shielded_cons hc, filled, ih, standsFor, if_neg hc, if_neg hs]
      rfl

theorem expandReplacement_shielded : expandReplacement matched (shielded r) = r :=
  (expandReplacement_eq fun h => by cases h).trans (@filled_shielded _ _ none)

-- How many ampersands of a text have a backslash right before them, or have none there, after a
-- character that is not part of it.
def ampersands (isShielded : Bool) (before : Option Char) (r : List Char) : Nat :=
  ((before :: r.map some).zip r).countP fun q =>
    q.2 = '&' ∧ decide (q.1 = some '\\') = isShielded

theorem ampersands_ampersand (isShielded : Bool) (before : Option Char) (r : List Char) :
    ampersands isShielded before ('&' :: r) = ampersands isShielded (some '&') r +
      if decide (before = some '\\') = isShielded then 1 else 0 := by
  simp [ampersands, List.countP_cons]

theorem ampersands_cons {isShielded : Bool} {c : Char} (h : c ≠ '&') (before : Option Char)
    (r : List Char) :
    ampersands isShielded before (c :: r) = ampersands isShielded (some c) r := by
  simp [ampersands, h]

-- Whether a text begins with an ampersand after a backslash that is not part of it, as a number.
def straddling (before : Option Char) (r : List Char) : Nat :=
  if before = some '\\' ∧ r.head? = some '&' then 1 else 0

theorem straddling_cons {c : Char} (h : c ≠ '&') (r : List Char) :
    straddling before (c :: r) = 0 := by
  simp [straddling, h]

theorem straddling_le (before : Option Char) (r : List Char) : straddling before r ≤ 1 := by
  unfold straddling
  split <;> decide

theorem ampersands_le : ampersands false before r + 2 * ampersands true before r ≤
    r.length + straddling before r := by
  induction r generalizing before
  case nil => exact Nat.zero_le _
  case cons c cs ih =>
    have ih := @ih (some c)
    have hs := straddling_le (some c) cs
    by_cases hc : c = '&'
    case pos =>
      subst hc
      have hn : straddling (some '&') cs = 0 := by simp [straddling]
      by_cases hb : before = some '\\'
      all_goals
        simp [ampersands_ampersand, straddling, hb]
        omega
    case neg =>
      rw [ampersands_cons hc, ampersands_cons hc, straddling_cons hc, List.length_cons]
      omega

theorem length_filled : (filled matched before r).length + ampersands false before r +
    ampersands true before r =
      r.length + ampersands false before r * matched.length + straddling before r := by
  induction r generalizing before
  case nil => simp [filled, ampersands, straddling]
  case cons c cs ih =>
    have ih := @ih (some c)
    by_cases hc : c = '&'
    case pos =>
      subst hc
      have hn : straddling (some '&') cs = 0 := by simp [straddling]
      by_cases hb : before = some '\\'
      all_goals
        simp [filled, standsFor, ampersands_ampersand, straddling, hb, Nat.add_mul]
        omega
    case neg =>
      rw [ampersands_cons hc, ampersands_cons hc, straddling_cons hc, filled, standsFor, if_neg hc]
      by_cases hs : c = '\\' ∧ cs.head? = some '&'
      case pos =>
        have hn : straddling (some c) cs = 1 := by simp [straddling, hs]
        rw [if_pos hs, List.nil_append, List.length_cons]
        omega
      case neg =>
        have hn : straddling (some c) cs = 0 := by simp [straddling, hs]
        rw [if_neg hs, List.singleton_append, List.length_cons, List.length_cons]
        omega

-- Any text can be used literally as a replacement, with its ampersands shielded. The length of what
-- a replacement stands for counts each ampersand that is shielded as one, without its backslash,
-- and each other one as the matched text.
theorem replacements_literal (q : Matcher) (r matched text : List Char) (all : Bool) :
    expandReplacement matched (shielded r) = r ∧
    substitute q (shielded r) text all =
      (if all then q.rewriteAll (fun _ => r) text else q.rewriteFirst (fun _ => r) text,
        (q.found text).length) ∧
    let a := ampersands false none r
    let b := ampersands true none r
    a + 2 * b ≤ r.length ∧
      (expandReplacement matched r).length = (r.length - a - 2 * b) + a * matched.length + b := by
  have hf : (filled · none (shielded r)) = fun _ => r := funext fun _ => filled_shielded
  refine ⟨expandReplacement_shielded, ?_, ?_⟩
  case refine_1 => rw [substitute_eq, hf]
  case refine_2 =>
    intro a b
    have hle : a + 2 * b ≤ r.length := ampersands_le
    have hl : (filled matched none r).length + a + b = r.length + a * matched.length :=
      length_filled
    have he : expandReplacement matched r = filled matched none r :=
      expandReplacement_eq fun h => by cases h
    refine ⟨hle, ?_⟩
    rw [he]
    omega

end PatternAction
