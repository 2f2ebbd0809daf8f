import PatternAction.Pattern.Matching
import PatternAction.Proofs.Number.Counting
import PatternAction.Proofs.Run.Alignment
import PatternAction.Proofs.Run.Operations
import PatternAction.Proofs.Text.Splitting

namespace PatternAction

namespace Table

theorem get?_numbered {α : Type} {vs : List α} {k : String} {v : α} :
    (numbered vs).get? k = some v ↔ ∃ i : Nat, k = toString i ∧ vs[i]? = some v := by
  have hg (n : Nat) : get?.go k ((vs.zipIdx n).map fun q => (toString q.2, q.1)) = some v ↔
      ∃ i : Nat, k = toString (n + i) ∧ vs[i]? = some v := by
    induction vs generalizing n
    case nil => simp [get?.go]
    case cons w vs ih =>
      rw [List.zipIdx_cons, List.map_cons, get?.go]
      split
      case isTrue hk =>
        constructor
        case mp => exact fun h => ⟨0, hk.symm, h⟩
        case mpr =>
          rintro ⟨i, hi, hv⟩
          obtain rfl : i = 0 := by
            have hn : n = n + i := toString_inj (hk.trans hi)
            omega
          exact hv
      case isFalse hk =>
        rw [ih]
        constructor
        case mp =>
          rintro ⟨i, hi, hv⟩
          exact ⟨i + 1, by rw [hi, Nat.add_assoc, Nat.add_comm 1], hv⟩
        case mpr =>
          rintro ⟨i, hi, hv⟩
          cases i
          case zero => exact absurd hi.symm hk
          case succ i => exact ⟨i, by rw [hi, Nat.add_assoc, Nat.add_comm 1], hv⟩
  have h := hg 0
  simp only [Nat.zero_add] at h
  exact h

end Table

namespace Environment

-- A name is bound to an array that holds some texts in order, and nothing else.
def Holds (e : Environment) (x : String) (texts : List String) : Prop :=
  ∃ t, e.lookup x = some (.array t) ∧
    ∀ k v, t.get? k = some v ↔ ∃ i : Nat, k = toString i ∧ texts[i]? = some v.text

variable {e : Environment} {x y : String} {t : Table Value} {texts : List String}

theorem Aligned.setArray (h : e.Aligned) : (e.setArray x t).Aligned :=
  h.of_alike h.alike_store fun _ _ hr => hr.setCell (h.below_resolve x) (.inl rfl)

theorem holds_setArray (h : e.Aligned) :
    (e.setArray x (.numbered (texts.map Value.mk))).Holds x texts := by
  refine ⟨.numbered (texts.map Value.mk), ?_, fun k v => ?_⟩
  · rw [lookup, setArray, resolve_store]
    exact cell?_setCell_self (h.below_resolve x)
  · have hv (i : Nat) : (texts.map Value.mk)[i]? = some v ↔ texts[i]? = some v.text := by
      rw [List.getElem?_map, Option.map_eq_some_iff]
      constructor
      case mp =>
        rintro ⟨s, hs, rfl⟩
        exact hs
      case mpr => exact fun hs => ⟨v.text, hs, rfl⟩
    simp only [Table.get?_numbered, hv]

theorem Holds.setArray (h : e.Holds x texts) (he : e.Aligned) (hy : e.resolve y ≠ e.resolve x) :
    (e.setArray y t).Holds x texts := by
  obtain ⟨s, hs, ht⟩ := h
  refine ⟨s, ?_, ht⟩
  rw [lookup, Environment.setArray, he.alike_store.resolve, store, cell?_setCell_of_ne hy.symm]
  exact hs

end Environment

namespace Run

variable {p : Program} {n : Nat} {m m₁ m₂ : Machine} {text sep : Expr} {a b s : String}
  {la lb l : Location} {v : Value} {fields separators : List String}

theorem call_split_on [Patterns] (hp : p.function? "split" = none)
    (ht : (eval p n text).on m = (.ok v, m₁)) (hs : (evalPattern p n sep).on m₁ = (.ok s, m₂))
    (hf : splitText? v.text s = some (fields, separators)) :
    (eval p (n + 2) (.call "split" [text, .name a la, sep, .name b lb] l)).on m =
      (.ok (.ofNat fields.length), (m₂.withEnvironment
        (m₂.environment.setArray a (.numbered (fields.map Value.mk)))).withEnvironment
        ((m₂.environment.setArray a (.numbered (fields.map Value.mk))).setArray b
          (.numbered (separators.map Value.mk)))) := by
  have hb : Builtin.ofName? "split" = some .split := by decide
  have hf : (split v.text s).on m₂ = (.ok (fields, separators), m₂) := by
    rw [Run.split, hf]
    rfl
  rw [eval, hp, hb]
  change (provided p (n + 1) .split [text, .name a la, sep, .name b lb] l).on m = _
  rw [provided, on_bind_ok ht]
  change (evalPattern p n sep >>= _).on m₁ = _
  rw [on_bind_ok hs]
  change (split v.text s >>= _).on m₂ = _
  rw [on_bind_ok hf]
  rfl

end Run

-- A text that is split is what its fields and the separators between them are together, without the
-- white space around it if white space separates them. When a call splits it, one array is made to
-- hold the fields and another one the separators. No other cell is changed.
theorem split_lossless [Patterns] :
    (∀ (text sep : String) (fields separators : List String),
      splitText? text sep = some (fields, separators) →
        ∃ t, (if sep = " " then Text.Trims Text.isBlank text.toList t.toList else t = text) ∧
          Parted sep t fields separators) ∧
    ∀ (p : Program) (n : Nat) (m m₁ m₂ : Machine) (text sep : Expr) (a b s : String)
      (la lb l : Location) (v : Value) (fields separators : List String),
      p.function? "split" = none → (Run.eval p n text).on m = (.ok v, m₁) →
      (Run.evalPattern p n sep).on m₁ = (.ok s, m₂) →
      splitText? v.text s = some (fields, separators) →
      m₂.environment.Aligned → m₂.environment.resolve a ≠ m₂.environment.resolve b →
        ∃ w m', (Run.eval p (n + 2) (.call "split" [text, .name a la, sep, .name b lb] l)).on m =
            (.ok w, m') ∧
          w = .ofNat fields.length ∧
          (fields.length ≤ 2 ^ 53 → w.text = toString fields.length) ∧
          m'.environment.Holds a fields ∧ m'.environment.Holds b separators ∧
          ∀ r, r ≠ m₂.environment.resolve a → r ≠ m₂.environment.resolve b →
            m'.environment.cell? r = m₂.environment.cell? r := by
  refine ⟨fun _ _ _ _ => Parted.of_splitText, ?_⟩
  intro p n m m₁ m₂ text sep a b s la lb l v fields separators hp ht hs hf ha hab
  let t : Table Value := .numbered (fields.map Value.mk)
  have hr : (m₂.environment.setArray a t).resolve b = m₂.environment.resolve b :=
    ha.alike_store.resolve b
  have hra : (m₂.environment.setArray a t).resolve a = m₂.environment.resolve a :=
    Environment.resolve_store
  refine ⟨_, _, Run.call_split_on hp ht hs hf, rfl, fun h => ?_, ?_, ?_, ?_⟩
  · rw [Value.ofNat_eq h]
  · refine (Environment.holds_setArray ha).setArray ha.setArray ?_
    rw [hr, hra]
    exact hab.symm
  · exact Environment.holds_setArray ha.setArray
  · intro r hna hnb
    change ((m₂.environment.setArray a t).setCell _ _).cell? r = _
    rw [Environment.cell?_setCell_of_ne (hr ▸ hnb)]
    exact Environment.cell?_setCell_of_ne hna

-- A text is split at each point, also where nothing is between two of them.
theorem split_lossless_points :
    ∃ w m', (Run.eval {} 4 (.call "split" [.constant "a..b" .start, .name "x" .start,
        .constant "." .start, .name "y" .start] .start)).on {} = (.ok w, m') ∧
      w.text = "3" ∧
      m'.environment.Holds "x" ["a", "", "b"] ∧ m'.environment.Holds "y" [".", "."] := by
  have hs : splitText? "a..b" "." = some (["a", "", "b"], [".", "."]) := by decide +kernel
  have ha : ({} : Machine).environment.Aligned := .of_frames_empty rfl
  obtain ⟨w, m', he, _, hw, hx, hy, _⟩ := split_lossless.2 {} 2 {} {} {} (.constant "a..b" .start)
    (.constant "." .start) "x" "y" "." .start .start .start ⟨"a..b"⟩ _ _ rfl rfl rfl hs ha
    (by decide)
  exact ⟨w, m', he, hw (by decide), hx, hy⟩

end PatternAction
