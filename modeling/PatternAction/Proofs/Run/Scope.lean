import PatternAction.Environment

namespace PatternAction

def Cell.isArray : Cell → Bool
  | .scalar _ => false
  | .array _  => true

namespace Table

variable {α : Type} {t : Table α} {k k' : String} {v : α}

theorem contains_insert : (t.insert k v).contains k' = (k' = k ∨ t.contains k') := by
  simp only [contains, get?_insert]
  split <;> simp [*]

theorem contains_insert_of_contains (h : t.contains k) :
    (t.insert k v).contains k' = t.contains k' := by
  rw [Bool.eq_iff_iff, contains_insert]
  exact ⟨fun h' => h'.elim (· ▸ h) id, .inr⟩

theorem insert_insert {w : α} : (t.insert k v).insert k w = t.insert k w := by
  obtain ⟨es⟩ := t
  simp only [insert, mk.injEq]
  induction es
  case nil => simp [insert.go]
  case cons e es ih =>
    simp only [insert.go]
    split <;> simp [insert.go, *]

theorem insert_eq_self (h : t.get? k = some v) : t.insert k v = t := by
  obtain ⟨es⟩ := t
  simp only [get?] at h
  simp only [insert, mk.injEq]
  induction es
  case nil => cases h
  case cons e es ih =>
    simp only [get?.go] at h
    simp only [insert.go]
    split
    case isTrue hk =>
      rw [if_pos hk] at h
      cases h
      rw [← hk]
    case isFalse hk =>
      rw [if_neg hk] at h
      rw [ih h]

theorem erase_eq_self_iff : t.erase k = t ↔ t.contains k = false := by
  constructor
  case mp =>
    intro h
    rw [← h, contains, get?_erase, if_pos rfl]
    rfl
  case mpr =>
    intro h
    obtain ⟨es⟩ := t
    simp only [erase, mk.injEq, List.filter_eq_self, decide_eq_true_eq]
    simp only [contains, get?] at h
    induction es
    case nil => simp
    case cons e es ih =>
      simp only [get?.go] at h
      split at h
      case isTrue => cases h
      case isFalse hk => exact List.forall_mem_cons.mpr ⟨hk, ih h⟩

end Table

def Reference.Below (n : Nat) (r : Reference) : Prop :=
  ∀ i, r.scope = .frame i → i < n

theorem Reference.Below.mono {r : Reference} {n k : Nat} (h : r.Below n) (hk : n ≤ k) : r.Below k :=
  fun i hi => Nat.lt_of_lt_of_le (h i hi) hk

theorem Reference.Below.globals {x : String} {n : Nat} : Reference.Below n ⟨.globals, x⟩ :=
  fun _ h => nomatch h

-- Two frames with the same bindings, whatever their locals hold.
structure Frame.Alike (f g : Frame) : Prop where
  aliases : g.aliases = f.aliases
  locals  : ∀ x, g.locals.contains x = f.locals.contains x

theorem Frame.Alike.refl (f : Frame) : f.Alike f := ⟨rfl, fun _ => rfl⟩

theorem Frame.Alike.trans {f g h : Frame} (h₁ : f.Alike g) (h₂ : g.Alike h) : f.Alike h :=
  ⟨h₂.aliases.trans h₁.aliases, fun x => (h₂.locals x).trans (h₁.locals x)⟩

namespace Environment

variable {e e' : Environment} {r q : Reference} {c : Cell} {f : Frame} {x : String} {i : Nat}

def depth (e : Environment) : Nat := e.frames.size

-- Two environments with the same calls under way.
structure Alike (e e' : Environment) : Prop where
  depth  : e'.depth = e.depth
  frames : ∀ (i : Nat) (f : Frame), e.frames[i]? = some f →
    ∃ g, e'.frames[i]? = some g ∧ f.Alike g

theorem Alike.of_frames_eq (h : e'.frames = e.frames) : e.Alike e' where
  depth := congrArg Array.size h
  frames _ f hf := ⟨f, h ▸ hf, .refl f⟩

theorem resolve_of_top (hf : e.frames[e.depth - 1]? = some f) :
    e.resolve x = match f.aliases.get? x with
      | some r => r
      | none   => if f.locals.contains x then ⟨.frame (e.depth - 1), x⟩ else ⟨.globals, x⟩ := by
  have hb : e.frames.back? = some f := Array.back?_eq_getElem?.trans hf
  cases ha : f.aliases.get? x <;> simp [resolve, hb, ha, depth]

theorem resolve_of_frames_empty (hd : e.depth = 0) : e.resolve x = ⟨.globals, x⟩ := by
  have he : e.frames = #[] := Array.eq_empty_of_size_eq_zero hd
  simp [resolve, he]

theorem top_cases (e : Environment) :
    e.depth = 0 ∨ ∃ f, e.frames[e.depth - 1]? = some f ∧ 0 < e.depth := by
  rcases Nat.eq_zero_or_pos e.depth with hd | hd
  · exact .inl hd
  · exact .inr ⟨_, Array.getElem?_eq_getElem (Nat.sub_lt hd Nat.one_pos), hd⟩

theorem Alike.resolve (h : e.Alike e') (x : String) : e'.resolve x = e.resolve x := by
  rcases e.top_cases with hd | ⟨f, hf, _⟩
  · rw [resolve_of_frames_empty hd, resolve_of_frames_empty (h.depth.trans hd)]
  · have ⟨g, hg, hfg⟩ := h.frames _ _ hf
    rw [← h.depth] at hg
    rw [resolve_of_top hf, resolve_of_top hg, hfg.aliases, hfg.locals, h.depth]

@[simp] theorem depth_setCell : (e.setCell r c).depth = e.depth := by
  unfold setCell
  split <;> simp [depth]

@[simp] theorem depth_push : (e.push f).depth = e.depth + 1 := by simp [depth, push]

@[simp] theorem depth_pop : e.pop.depth = e.depth - 1 := by simp [depth, pop]

theorem frames_setCell (hf : e.frames[i]? = some f) :
    (e.setCell r c).frames[i]? = some
      (if r.scope = .frame i then { f with locals := f.locals.insert r.name c } else f) := by
  unfold setCell
  split
  case h_1 h => simp [h, hf]
  case h_2 j h =>
    simp only [Array.getElem?_modify, hf, Option.map_some, h, Scope.frame.injEq]
    split <;> rfl

theorem cell?_setCell_self (h : r.Below e.depth) : (e.setCell r c).cell? r = some c := by
  unfold cell?
  split
  case h_1 hs => simp [setCell, hs]
  case h_2 i hs =>
    have hi : i < e.frames.size := h i hs
    rw [frames_setCell (Array.getElem?_eq_getElem hi), if_pos hs]
    simp

theorem cell?_setCell_of_ne (h : q ≠ r) : (e.setCell r c).cell? q = e.cell? q := by
  obtain ⟨s, x⟩ := q
  obtain ⟨s', y⟩ := r
  have hxy : s = s' → x ≠ y := by
    rintro rfl rfl
    exact h rfl
  cases s <;> cases s'
  case globals.globals => simp [cell?, setCell, Table.get?_insert, hxy rfl]
  case globals.frame | frame.globals => rfl
  case frame.frame i j =>
    cases hf : e.frames[i]?
    case none => simp [cell?, setCell, Array.getElem?_modify, hf]
    case some f =>
      simp only [cell?, frames_setCell hf, hf, Option.bind_some, Scope.frame.injEq]
      split
      case isTrue hj => simp [Table.get?_insert, hxy (by rw [hj])]
      case isFalse => rfl

theorem cell?_push (h : r.Below e.depth) : (e.push f).cell? r = e.cell? r := by
  unfold cell?
  split
  case h_1 => rfl
  case h_2 i hs =>
    have hi : i < e.frames.size := h i hs
    simp [push, Array.getElem?_push, Nat.ne_of_lt hi]

theorem cell?_pop (h : r.Below (e.depth - 1)) : e.pop.cell? r = e.cell? r := by
  unfold cell?
  split
  case h_1 => rfl
  case h_2 i hs =>
    have hi : i < e.frames.size - 1 := h i hs
    rw [pop, Array.getElem?_pop, if_pos hi]

theorem cell?_frame_eq_some_iff : (e.cell? ⟨.frame i, x⟩).isSome ↔
    ∃ f, e.frames[i]? = some f ∧ f.locals.contains x := by
  cases h : e.frames[i]? <;> simp [cell?, h, Table.contains]

theorem setCell_setCell {d : Cell} : (e.setCell r c).setCell r d = e.setCell r d := by
  obtain ⟨s, x⟩ := r
  cases s
  case globals => simp [setCell, Table.insert_insert]
  case frame i =>
    simp only [setCell, mk.injEq, true_and]
    apply Array.ext_getElem?
    intro j
    simp only [Array.getElem?_modify]
    split <;> simp [Table.insert_insert, Function.comp_def]

theorem setCell_eq_self (h : e.cell? r = some c) : e.setCell r c = e := by
  obtain ⟨s, x⟩ := r
  cases s
  case globals => rw [setCell, Table.insert_eq_self h]
  case frame i =>
    simp only [setCell]
    congr
    apply Array.ext_getElem?
    intro j
    rw [Array.getElem?_modify]
    split
    case isFalse => rfl
    case isTrue hj =>
      subst hj
      simp only [cell?, Option.bind_eq_some_iff] at h
      have ⟨f, hf, hc⟩ := h
      rw [hf, Option.map_some, Table.insert_eq_self hc]

theorem below_of_cell? (h : e.cell? r = some c) : r.Below e.depth := by
  intro i hi
  simp only [cell?, hi, Option.bind_eq_some_iff] at h
  have ⟨_, hf, _⟩ := h
  exact (Array.getElem?_eq_some_iff.mp hf).1

def fieldCount : Reference := ⟨.globals, "NF"⟩

def IsPlain (r : Reference) : Prop := r.scope = .globals → isFieldName r.name = false

theorem cell?_dropFields (h : IsPlain r) : e.dropFields.cell? r = e.cell? r := by
  unfold cell?
  split
  case h_1 hs => simp [dropFields, Table.get?_restrict, h hs]
  case h_2 => rfl

theorem cell?_setGlobal_of_ne {v : Value} (h : r ≠ ⟨.globals, x⟩) :
    (e.setGlobal x v).cell? r = e.cell? r :=
  cell?_setCell_of_ne h

theorem IsPlain.ne_of_isFieldName (h : IsPlain r) (hx : isFieldName x) : r ≠ ⟨.globals, x⟩ := by
  rintro rfl
  cases hx.symm.trans (h rfl)

section Fields

variable {record : String} {fs : List String}

-- The fields are stored one by one, so what a store of one field keeps is kept by all.
theorem setFields_induction {P : Environment → Prop} (he : P e)
    (h : ∀ e x v, P e → isFieldName x ∨ x = "NF" → P (e.setGlobal x v)) :
    P (e.setFields record fs) := by
  have hf (l : List (String × Nat)) {e : Environment} (he : P e) :
      P (l.foldl (fun e q => e.setGlobal ("$" ++ toString (q.2 + 1)) ⟨q.1⟩) e) := by
    induction l generalizing e
    case nil => exact he
    case cons ih => exact ih (h _ _ _ he (.inl (by simp [isFieldName])))
  exact h _ _ _ (hf _ (h _ _ _ he (.inl (by decide)))) (.inr rfl)

theorem frames_setFields : (e.setFields record fs).frames = e.frames :=
  setFields_induction (P := fun e' => e'.frames = e.frames) rfl fun _ _ _ h _ => h

theorem cell?_setFields (h : IsPlain r) (hn : r ≠ fieldCount) :
    (e.setFields record fs).cell? r = e.cell? r := by
  refine setFields_induction (P := fun e' => e'.cell? r = e.cell? r) rfl fun _ x _ he hx => ?_
  rw [cell?_setGlobal_of_ne ?_, he]
  rcases hx with hx | rfl
  · exact h.ne_of_isFieldName hx
  · exact hn

end Fields

theorem resolve_cases (e : Environment) (x : String) :
    e.resolve x = ⟨.globals, x⟩ ∨
    ∃ f, e.frames[e.depth - 1]? = some f ∧ 0 < e.depth ∧
      (f.aliases.get? x = some (e.resolve x) ∨
        e.resolve x = ⟨.frame (e.depth - 1), x⟩ ∧ f.locals.contains x) := by
  rcases e.top_cases with hd | ⟨f, hf, hd⟩
  · exact .inl (resolve_of_frames_empty hd)
  · rw [resolve_of_top hf]
    split
    case h_1 r ha => exact .inr ⟨f, hf, hd, .inl ha⟩
    case h_2 =>
      split
      case isTrue hl => exact .inr ⟨f, hf, hd, .inr ⟨rfl, hl⟩⟩
      case isFalse => exact .inl rfl

theorem resolve_store : (e.store x c).resolve x = e.resolve x := by
  rcases e.top_cases with hd | ⟨f, hf, _⟩
  · have hd' : (e.store x c).depth = 0 := depth_setCell.trans hd
    rw [resolve_of_frames_empty hd, resolve_of_frames_empty hd']
  · have hd' : (e.store x c).depth = e.depth := depth_setCell
    have hg : (e.store x c).frames[(e.store x c).depth - 1]? = _ := hd' ▸ frames_setCell hf
    have hr := resolve_of_top (x := x) hf
    rw [resolve_of_top hg, hd', hr]
    simp only [apply_ite Frame.aliases, ite_self]
    cases ha : f.aliases.get? x
    case some => rfl
    case none =>
      cases hl : f.locals.contains x
      case false => simp [hl]
      case true => simp [Table.contains_insert]

theorem lookup_store {d : Cell} (h : e.lookup x = some d) : (e.store x c).lookup x = some c := by
  rw [lookup, resolve_store]
  exact cell?_setCell_self (below_of_cell? h)

theorem delete_eq_self_iff (e : Environment) (x key : String) :
    (∀ e', e.delete x (some key) = .ok e' → e' = e) ↔ e.hasElement x key ≠ .ok true := by
  rw [delete, hasElement]
  split
  case h_1 t ht =>
    have hs : e.store x (.array (t.erase key)) = e ↔ t.contains key = false := by
      rw [← Table.erase_eq_self_iff]
      constructor
      case mp =>
        intro h
        have hl := lookup_store (c := .array (t.erase key)) ht
        rw [h, ht] at hl
        exact (Cell.array.inj (Option.some.inj hl)).symm
      case mpr =>
        intro h
        rw [h]
        exact setCell_eq_self ht
    simp [hs]
  case h_2 => simp
  case h_3 => simp

end Environment

end PatternAction
