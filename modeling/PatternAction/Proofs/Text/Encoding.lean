import Mathlib.Data.String.Basic
import Mathlib.Tactic.SplitIfs

namespace PatternAction

namespace Text

def bytes (cs : List Char) : List UInt8 := cs.flatMap String.utf8EncodeChar

theorem toUTF8_eq (s : String) : s.toUTF8.data.toList = bytes s.toList := by
  conv_lhs => rw [← String.ofList_toList (s := s)]
  exact List.toList_data_toByteArray

@[simp] theorem bytes_nil : bytes [] = [] := rfl

@[simp] theorem bytes_cons (c : Char) (cs : List Char) :
    bytes (c :: cs) = String.utf8EncodeChar c ++ bytes cs := rfl

theorem bytes_append (cs ds : List Char) : bytes (cs ++ ds) = bytes cs ++ bytes ds :=
  List.flatMap_append

-- A byte that is not the first one of a character.
def continues (b : UInt8) : Bool := 128 ≤ b.toNat && b.toNat < 192

section Characters

variable {c d : Char}

theorem toNat_lt (c : Char) : c.val.toNat < 0x110000 := by
  rcases c.valid with h | h <;> omega

theorem exists_encode (c : Char) : ∃ b bs, String.utf8EncodeChar c = b :: bs ∧
    continues b = false ∧ ∀ x ∈ bs, continues x := by
  have hc := toNat_lt c
  unfold String.utf8EncodeChar
  generalize c.val.toNat = n at hc
  dsimp only
  split_ifs
  all_goals
    refine ⟨_, _, rfl, ?_, ?_⟩
    all_goals
      simp [continues]
      try omega

-- The first byte tells how many there are, and the more there are, the greater it is.
theorem encode_lt (h : c < d) (xs ys : List UInt8) :
    String.utf8EncodeChar c ++ xs < String.utf8EncodeChar d ++ ys := by
  have h : c.val.toNat < d.val.toNat := h
  have hd := toNat_lt d
  have lt {u v : ℕ} (hu : u < 256) (hv : v < 256) : UInt8.ofNat u < UInt8.ofNat v ↔ u < v := by
    rw [UInt8.lt_iff_toNat_lt, UInt8.toNat_ofNat_of_lt' hu, UInt8.toNat_ofNat_of_lt' hv]
  have eq {u v : ℕ} (hu : u < 256) (hv : v < 256) : UInt8.ofNat u = UInt8.ofNat v ↔ u = v := by
    rw [← UInt8.toNat_inj, UInt8.toNat_ofNat_of_lt' hu, UInt8.toNat_ofNat_of_lt' hv]
  unfold String.utf8EncodeChar
  generalize c.val.toNat = m at h
  generalize d.val.toNat = n at h hd
  have hm : m / 64 / 64 = m / 4096 ∧ m / 4096 / 64 = m / 262144 := by omega
  have hn : n / 64 / 64 = n / 4096 ∧ n / 4096 / 64 = n / 262144 := by omega
  have h8 : m / 262144 % 8 = m / 262144 ∧ n / 262144 % 8 = n / 262144 := by omega
  dsimp only
  split_ifs
  all_goals
    simp (disch := omega) only [List.cons_append, List.nil_append, List.cons_lt_cons_iff, lt, eq]
    clear lt eq
    omega

end Characters

section Texts

variable {c d : Char} {cs ds part : List Char} {b : ℕ}

theorem bytes_lt_of_lt (h : cs < ds) : bytes cs < bytes ds := by
  induction cs generalizing ds
  case nil =>
    cases ds
    case nil => exact absurd h (List.lt_irrefl _)
    case cons d ds =>
      obtain ⟨x, xs, hx, _⟩ := exists_encode d
      rw [bytes_cons, hx]
      exact List.nil_lt_cons _ _
  case cons c cs ih =>
    cases ds
    case nil => exact absurd h (List.not_lt_nil _)
    case cons d ds =>
      rcases List.cons_lt_cons_iff.mp h with hc | ⟨rfl, hcs⟩
      · exact encode_lt hc _ _
      · exact List.append_left_lt (ih hcs)

theorem bytes_lt_iff : bytes cs < bytes ds ↔ cs < ds := by
  refine ⟨fun h => ?_, bytes_lt_of_lt⟩
  rcases lt_trichotomy cs ds with hlt | rfl | hlt
  · exact hlt
  · exact absurd h (List.lt_irrefl _)
  · exact absurd (bytes_lt_of_lt hlt) (List.lt_asymm h)

theorem encode_inj {xs ys : List UInt8}
    (h : String.utf8EncodeChar c ++ xs = String.utf8EncodeChar d ++ ys) : c = d := by
  rcases lt_trichotomy c d with hlt | he | hlt
  · exact absurd (h ▸ encode_lt hlt xs ys) (List.lt_irrefl _)
  · exact he
  · exact absurd (h ▸ encode_lt hlt ys xs) (List.lt_irrefl _)

theorem bytes_eq_nil_iff : bytes cs = [] ↔ cs = [] := by
  cases cs
  case nil => simp
  case cons c cs =>
    obtain ⟨x, xs, hx, _⟩ := exists_encode c
    simp [hx]

theorem bytes_prefix_iff : bytes part <+: bytes cs ↔ part <+: cs := by
  constructor
  case mpr =>
    rintro ⟨rest, rfl⟩
    exact ⟨bytes rest, (bytes_append part rest).symm⟩
  case mp =>
    intro h
    induction part generalizing cs
    case nil => exact List.nil_prefix
    case cons c part ih =>
      cases cs
      case nil => exact absurd (bytes_eq_nil_iff.mp (List.prefix_nil.mp h)) (by simp)
      case cons d cs =>
        obtain ⟨rest, hr⟩ := h
        rw [bytes_cons, bytes_cons, List.append_assoc] at hr
        obtain rfl := encode_inj hr
        exact List.cons_prefix_cons.mpr ⟨rfl, ih ⟨rest, List.append_cancel_left hr⟩⟩

theorem not_bytes_prefix_drop {k : ℕ} {rest : List UInt8} (hp : part ≠ []) (h₀ : 0 < k)
    (hk : k < (String.utf8EncodeChar c).length) :
    ¬bytes part <+: (String.utf8EncodeChar c).drop k ++ rest := by
  obtain ⟨d, ds, rfl⟩ := List.exists_cons_of_ne_nil hp
  obtain ⟨x, xs, hx, hf, _⟩ := exists_encode d
  obtain ⟨y, ys, hy, _, hc⟩ := exists_encode c
  obtain ⟨k, rfl⟩ := Nat.exists_eq_succ_of_ne_zero (Nat.ne_of_gt h₀)
  rw [hy, List.length_cons] at hk
  have hk : k < ys.length := by omega
  rw [bytes_cons, hx, hy, List.drop_succ_cons, List.drop_eq_getElem_cons hk]
  intro h
  have hxy := (List.cons_prefix_cons.mp h).1
  rw [hxy, hc _ (List.getElem_mem hk)] at hf
  cases hf

theorem bytes_prefix_drop_iff (hp : part ≠ []) : bytes part <+: (bytes cs).drop b ↔
    ∃ p, part <+: cs.drop p ∧ (bytes (cs.take p)).length = b := by
  induction cs generalizing b
  case nil => simp [bytes_eq_nil_iff, hp]
  case cons c cs ih =>
    have hc : 0 < (String.utf8EncodeChar c).length := by
      obtain ⟨x, xs, hx, _⟩ := exists_encode c
      simp [hx]
    rw [← Nat.or_exists_add_one]
    simp only [List.drop_zero, List.take_zero, List.drop_succ_cons, List.take_succ_cons, bytes_nil,
      bytes_cons, List.length_nil, List.length_append]
    rcases Nat.lt_or_ge b (String.utf8EncodeChar c).length with hb | hb
    case inl =>
      have hn : ¬∃ p, part <+: cs.drop p ∧
          (String.utf8EncodeChar c).length + (bytes (cs.take p)).length = b := by
        rintro ⟨p, _, h⟩
        omega
      rw [or_iff_left hn]
      rcases Nat.eq_zero_or_pos b with rfl | h₀
      · have h : bytes part <+: bytes (c :: cs) ↔ part <+: c :: cs := bytes_prefix_iff
        simpa using h
      · rw [List.drop_append_of_le_length (Nat.le_of_lt hb)]
        exact iff_of_false (not_bytes_prefix_drop hp h₀ hb) fun h => (Nat.ne_of_lt h₀) h.2
    case inr =>
      obtain ⟨k, rfl⟩ := Nat.exists_eq_add_of_le hb
      have hn : ¬(part <+: c :: cs ∧ 0 = (String.utf8EncodeChar c).length + k) := fun h => by
        omega
      rw [or_iff_right hn, List.drop_length_add_append, ih]
      simp

end Texts

end Text

end PatternAction
