import PatternAction.Proofs.Run.Scope
import PatternAction.Proofs.Syntax.Renaming

namespace PatternAction

namespace Renaming

-- The renaming of the innermost of the calls under way, which comes first.
def top : List Renaming → Renaming
  | []     => .refl
  | σ :: _ => σ

def nth : List Renaming → Nat → Renaming
  | [], _     => .refl
  | σ :: φ, i => if i = φ.length then σ else nth φ i

variable {φ : List Renaming} {σ : Renaming} {i : Nat} {x y : String}

theorem nth_cons_self : nth (σ :: φ) φ.length = σ := if_pos rfl

theorem nth_cons_of_lt (h : i < φ.length) : nth (σ :: φ) i = nth φ i := if_neg (Nat.ne_of_lt h)

theorem nth_top (h : 0 < φ.length) : nth φ (φ.length - 1) = top φ := by
  cases φ
  case nil => cases h
  case cons => exact nth_cons_self

theorem map_eq_iff (hx : σ.domain x) (hy : σ.domain y) : σ.map x = σ.map y ↔ x = y :=
  ⟨σ.injective x y hx hy, congrArg σ.map⟩

theorem get?_insert {α : Type} {t t' : Table α} {a : α}
    (h : ∀ x, σ.domain x → t'.get? (σ.map x) = t.get? x) (hy : σ.domain y) (hx : σ.domain x) :
    (t'.insert (σ.map y) a).get? (σ.map x) = (t.insert y a).get? x := by
  simp only [Table.get?_insert, map_eq_iff hx hy, h x hx]

end Renaming

open Renaming

namespace Reference

variable {φ : List Renaming} {σ : Renaming} {n : Nat} {r : Reference}

def renamed (φ : List Renaming) : Reference → Reference
  | ⟨.globals, x⟩ => ⟨.globals, x⟩
  | ⟨.frame i, x⟩ => ⟨.frame i, (nth φ i).map x⟩

-- A place in the globals or in one of the first `n` frames, where its name can be renamed.
def Within (φ : List Renaming) (n : Nat) (r : Reference) : Prop :=
  ∀ i, r.scope = .frame i → i < n ∧ (nth φ i).domain r.name

theorem Within.globals {x : String} : Within φ n ⟨.globals, x⟩ := fun _ h => nomatch h

theorem Within.mono {k : Nat} (h : r.Within φ n) (hk : n ≤ k) : r.Within φ k := fun i hi =>
  ⟨Nat.lt_of_lt_of_le (h i hi).1 hk, (h i hi).2⟩

theorem within_cons (hn : n ≤ φ.length) : r.Within (σ :: φ) n ↔ r.Within φ n := by
  refine forall₂_congr fun i _ => and_congr_right fun hi => ?_
  rw [nth_cons_of_lt (Nat.lt_of_lt_of_le hi hn)]

theorem renamed_cons (h : r.Within φ n) (hn : n ≤ φ.length) :
    r.renamed (σ :: φ) = r.renamed φ := by
  obtain ⟨s, x⟩ := r
  cases s
  case globals => rfl
  case frame i => rw [renamed, renamed, nth_cons_of_lt (Nat.lt_of_lt_of_le (h i rfl).1 hn)]

end Reference

namespace Frame

variable {φ : List Renaming} {σ τ : Renaming} {n : Nat} {f f' : Frame} {x y : String}

def binds (f : Frame) (x : String) : Bool := f.locals.contains x || f.aliases.contains x

-- The frames of a call and of the same call with other names, above `n` frames.
structure Renamed (φ : List Renaming) (n : Nat) (σ : Renaming) (f f' : Frame) : Prop where
  locals  : ∀ x, σ.domain x → f'.locals.get? (σ.map x) = f.locals.get? x
  aliases : ∀ x, σ.domain x →
              f'.aliases.get? (σ.map x) = (f.aliases.get? x).map (Reference.renamed φ)
  within  : ∀ x r, f.aliases.get? x = some r → r.Within φ n

-- Every name that gets another one is bound by the call, since the globals keep their names.
def Covers (σ : Renaming) (f : Frame) : Prop := ∀ x, σ.domain x → σ.map x ≠ x → f.binds x

namespace Renamed

theorem empty : Renamed φ n σ {} {} := ⟨fun _ _ => rfl, fun _ _ => rfl, fun _ _ h => nomatch h⟩

theorem cons_iff (hn : n ≤ φ.length) : f.Renamed (σ :: φ) n τ f' ↔ f.Renamed φ n τ f' := by
  have hr (hw : ∀ x r, f.aliases.get? x = some r → r.Within φ n) (x : String) :
      (f.aliases.get? x).map (Reference.renamed (σ :: φ)) =
        (f.aliases.get? x).map (Reference.renamed φ) := by
    cases ha : f.aliases.get? x
    case none => rfl
    case some r => exact congrArg some (Reference.renamed_cons (hw x r ha) hn)
  constructor
  case mp =>
    intro h
    have hw := fun x r ha => (Reference.within_cons hn).mp (h.within x r ha)
    exact ⟨h.locals, fun x hx => (h.aliases x hx).trans (hr hw x), hw⟩
  case mpr =>
    intro h
    refine ⟨h.locals, fun x hx => (h.aliases x hx).trans (hr h.within x).symm, ?_⟩
    exact fun x r ha => (Reference.within_cons hn).mpr (h.within x r ha)

theorem insertLocal {c : Cell} (h : f.Renamed φ n σ f') (hy : σ.domain y) :
    Renamed φ n σ { f with locals := f.locals.insert y c }
      { f' with locals := f'.locals.insert (σ.map y) c } where
  locals _ hx := get?_insert h.locals hy hx
  aliases := h.aliases
  within := h.within

theorem insertAlias {r : Reference} (h : f.Renamed φ n σ f') (hy : σ.domain y)
    (hr : r.Within φ n) :
    Renamed φ n σ { f with aliases := f.aliases.insert y r }
      { f' with aliases := f'.aliases.insert (σ.map y) (r.renamed φ) } where
  locals := h.locals
  aliases x hx := by
    simp only [Table.get?_insert, map_eq_iff hx hy, h.aliases x hx]
    split <;> rfl
  within x q hq := by
    rw [Table.get?_insert] at hq
    split at hq
    case isTrue => exact Option.some.inj hq ▸ hr
    case isFalse => exact h.within x q hq

end Renamed

section Binds

variable {c : Cell} {r : Reference}

theorem binds_insertLocal :
    ({ f with locals := f.locals.insert y c } : Frame).binds x ↔ x = y ∨ f.binds x := by
  simp [binds, Table.contains_insert, or_assoc]

theorem binds_insertAlias :
    ({ f with aliases := f.aliases.insert y r } : Frame).binds x ↔ x = y ∨ f.binds x := by
  simp [binds, Table.contains_insert, or_left_comm]

end Binds

end Frame

namespace Environment

-- The environments of a run and of the same run with other names.
structure Renamed (φ : List Renaming) (e e' : Environment) : Prop where
  globals : e'.globals = e.globals
  depth   : e.depth = φ.length
  depth'  : e'.depth = φ.length
  frames  : ∀ (i : Nat) (f : Frame), e.frames[i]? = some f →
              ∃ f', e'.frames[i]? = some f' ∧ f.Renamed φ i (nth φ i) f' ∧ f.Covers (nth φ i)

namespace Renamed

variable {φ : List Renaming} {σ : Renaming} {e e' : Environment} {r : Reference} {c : Cell}
variable {f f' : Frame} {x : String}

theorem nil_iff : Renamed [] e e' ↔ e.frames = #[] ∧ e' = e := by
  constructor
  case mp =>
    intro h
    have he : e.frames = #[] := Array.eq_empty_of_size_eq_zero h.depth
    have he' : e'.frames = #[] := Array.eq_empty_of_size_eq_zero h.depth'
    obtain ⟨gs, fs⟩ := e
    obtain ⟨gs', fs'⟩ := e'
    cases he
    cases he'
    cases h.globals
    exact ⟨rfl, rfl⟩
  case mpr =>
    rintro ⟨he, rfl⟩
    have hd : e'.depth = 0 := congrArg Array.size he
    exact ⟨rfl, hd, hd, fun i f hf => by simp [he] at hf⟩

theorem of_globals {g : Table Cell} (h : Renamed φ e e') :
    Renamed φ { e with globals := g } { e' with globals := g } :=
  ⟨rfl, h.depth, h.depth', h.frames⟩

theorem resolve (h : Renamed φ e e') (hx : (top φ).domain x) :
    e'.resolve ((top φ).map x) = (e.resolve x).renamed φ ∧ (e.resolve x).Within φ φ.length := by
  rcases e.top_cases with hd | ⟨f, hf, hd⟩
  case inl =>
    have hφ : φ = [] := List.eq_nil_of_length_eq_zero (h.depth.symm.trans hd)
    subst hφ
    rw [resolve_of_frames_empty hd, resolve_of_frames_empty h.depth']
    exact ⟨rfl, .globals⟩
  case inr =>
    rw [h.depth] at hf hd
    have ⟨f', hf', hr, hc⟩ := h.frames _ f hf
    rw [nth_top hd] at hr hc
    have hl : f'.locals.contains ((top φ).map x) = f.locals.contains x := by
      rw [Table.contains, hr.locals x hx, Table.contains]
    rw [resolve_of_top (f := f') (h.depth' ▸ hf'), resolve_of_top (f := f) (h.depth ▸ hf),
      hr.aliases x hx, hl, h.depth, h.depth']
    cases ha : f.aliases.get? x
    case some r => exact ⟨rfl, (hr.within x r ha).mono (Nat.sub_le _ _)⟩
    case none =>
      cases hb : f.locals.contains x
      case true =>
        refine ⟨?_, fun i hi => ?_⟩
        · simp [Reference.renamed, nth_top hd]
        · cases hi
          exact ⟨Nat.sub_lt hd Nat.one_pos, by simpa [nth_top hd] using hx⟩
      case false =>
        -- A name that the call does not bind means a global, and so keeps its name.
        have hm : (top φ).map x = x := by
          by_contra hm
          have hb' := hc x hx hm
          rw [Frame.binds, hb, Table.contains, ha] at hb'
          cases hb'
        simp [hm, Reference.renamed, Reference.Within.globals]

theorem exists_frame {i : Nat} (h : Renamed φ e e') (hi : i < φ.length) :
    ∃ f f', e.frames[i]? = some f ∧ e'.frames[i]? = some f' ∧ f.Renamed φ i (nth φ i) f' ∧
      f.Covers (nth φ i) := by
  rw [← h.depth] at hi
  have hf := Array.getElem?_eq_getElem hi
  have ⟨f', hf', hr⟩ := h.frames i _ hf
  exact ⟨_, f', hf, hf', hr⟩

theorem cell? (h : Renamed φ e e') (hr : r.Within φ φ.length) :
    e'.cell? (r.renamed φ) = e.cell? r := by
  obtain ⟨s, x⟩ := r
  cases s
  case globals => simp [Environment.cell?, Reference.renamed, h.globals]
  case frame i =>
    obtain ⟨hi, hx⟩ := hr i rfl
    obtain ⟨f, f', hf, hf', hr, _⟩ := h.exists_frame hi
    simp only [Environment.cell?, Reference.renamed, hf, hf', Option.bind_some]
    exact hr.locals x hx

theorem setCell (h : Renamed φ e e') (hr : r.Within φ φ.length) :
    Renamed φ (e.setCell r c) (e'.setCell (r.renamed φ) c) := by
  obtain ⟨s, x⟩ := r
  cases s
  case globals =>
    simp only [Environment.setCell, Reference.renamed, h.globals]
    exact h.of_globals
  case frame i =>
    have hd : (e.setCell ⟨.frame i, x⟩ c).depth = φ.length := depth_setCell.trans h.depth
    refine ⟨h.globals, hd, depth_setCell.trans h.depth', fun j g hg => ?_⟩
    obtain ⟨hj, _⟩ := Array.getElem?_eq_some_iff.mp hg
    obtain ⟨f, f', hf, hf', hfr, hc⟩ := h.exists_frame (Nat.lt_of_lt_of_eq hj hd)
    cases (frames_setCell hf).symm.trans hg
    refine ⟨_, frames_setCell hf', ?_⟩
    simp only [Reference.renamed, Scope.frame.injEq]
    split
    case isFalse => exact ⟨hfr, hc⟩
    case isTrue hij =>
      subst hij
      refine ⟨hfr.insertLocal (hr i rfl).2, fun y hy hm => ?_⟩
      exact Frame.binds_insertLocal.mpr (.inr (hc y hy hm))

theorem lookup (h : Renamed φ e e') (hx : (top φ).domain x) :
    e'.lookup ((top φ).map x) = e.lookup x := by
  have ⟨hr, hw⟩ := h.resolve hx
  rw [Environment.lookup, hr, h.cell? hw, Environment.lookup]

theorem store (h : Renamed φ e e') (hx : (top φ).domain x) :
    Renamed φ (e.store x c) (e'.store ((top φ).map x) c) := by
  have ⟨hr, hw⟩ := h.resolve hx
  rw [Environment.store, Environment.store, hr]
  exact h.setCell hw

theorem setGlobal {v : Value} (h : Renamed φ e e') :
    Renamed φ (e.setGlobal x v) (e'.setGlobal x v) := by
  rw [Environment.setGlobal, Environment.setGlobal, h.globals]
  exact h.of_globals

theorem dropFields (h : Renamed φ e e') : Renamed φ e.dropFields e'.dropFields := by
  rw [Environment.dropFields, Environment.dropFields, h.globals]
  exact h.of_globals

theorem push (h : Renamed φ e e') (hf : f.Renamed φ φ.length σ f') (hc : f.Covers σ) :
    Renamed (σ :: φ) (e.push f) (e'.push f') where
  globals := h.globals
  depth := by simp [h.depth]
  depth' := by simp [h.depth']
  frames i g hg := by
    have hd : e.frames.size = φ.length := h.depth
    have hd' : e'.frames.size = φ.length := h.depth'
    rw [Environment.push, Array.getElem?_push, hd] at hg
    rw [Environment.push, Array.getElem?_push, hd']
    split at hg
    case isTrue hi =>
      cases hg
      subst hi
      rw [if_pos rfl, nth_cons_self]
      exact ⟨f', rfl, (Frame.Renamed.cons_iff (Nat.le_refl _)).mpr hf, hc⟩
    case isFalse hi =>
      have hi : i < φ.length := hd ▸ (Array.getElem?_eq_some_iff.mp hg).1
      obtain ⟨g', hg', hr, hc⟩ := h.frames i g hg
      rw [if_neg (Nat.ne_of_lt hi), nth_cons_of_lt hi]
      exact ⟨g', hg', (Frame.Renamed.cons_iff (Nat.le_of_lt hi)).mpr hr, hc⟩

theorem pop (h : Renamed (σ :: φ) e e') : Renamed φ e.pop e'.pop where
  globals := h.globals
  depth := by simp [h.depth]
  depth' := by simp [h.depth']
  frames i g hg := by
    have hd : e.frames.size = φ.length + 1 := h.depth
    have hd' : e'.frames.size = φ.length + 1 := h.depth'
    rw [Environment.pop, Array.getElem?_pop, hd, Nat.add_sub_cancel] at hg
    rw [Environment.pop, Array.getElem?_pop, hd', Nat.add_sub_cancel]
    split at hg
    case isFalse => cases hg
    case isTrue hi =>
      obtain ⟨g', hg', hr, hc⟩ := h.frames i g hg
      rw [nth_cons_of_lt hi] at hr hc
      exact ⟨g', by rwa [if_pos hi], (Frame.Renamed.cons_iff (Nat.le_of_lt hi)).mp hr, hc⟩

end Renamed

end Environment

end PatternAction
