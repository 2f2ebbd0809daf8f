import PatternAction.Pattern.Matching
import PatternAction.Proofs.Number.Counting
import PatternAction.Proofs.Run.Operations

namespace PatternAction

namespace Environment

variable {e : Environment} {x record : String} {fs : List String} {i j k : Nat}

def fieldAt (i : Nat) : String := "$" ++ toString i

theorem isFieldName_fieldAt (i : Nat) : isFieldName (fieldAt i) := by
  simp [isFieldName, fieldAt]

theorem fieldAt_inj (h : fieldAt i = fieldAt j) : i = j := by
  have h := congrArg (·.toList) h
  simp only [fieldAt, String.toList_append] at h
  exact toString_inj (String.toList_inj.mp (List.append_cancel_left h))

theorem get?_setGlobal {v : Value} {y : String} : (e.setGlobal x v).globals.get? y =
    if y = x then some (.scalar v) else e.globals.get? y :=
  Table.get?_insert ..

section Store

def storeFields (e : Environment) (k : Nat) (fs : List String) : Environment :=
  (fs.zipIdx k).foldl (fun e q => e.setGlobal (fieldAt (q.2 + 1)) ⟨q.1⟩) e

theorem storeFields_cons {f : String} : e.storeFields k (f :: fs) =
    (e.setGlobal (fieldAt (k + 1)) ⟨f⟩).storeFields (k + 1) fs := rfl

theorem get?_storeFields_of_ne (h : ∀ j, x ≠ fieldAt (k + j + 1)) :
    (e.storeFields k fs).globals.get? x = e.globals.get? x := by
  induction fs generalizing e k
  case nil => rfl
  case cons f fs ih =>
    rw [storeFields_cons, ih fun j => ?_, get?_setGlobal, if_neg (h 0)]
    have := h (j + 1)
    rwa [Nat.add_right_comm k]

theorem get?_storeFields : (e.storeFields k fs).globals.get? (fieldAt (k + j + 1)) =
    (fs[j]?.map fun f => .scalar ⟨f⟩).or (e.globals.get? (fieldAt (k + j + 1))) := by
  induction fs generalizing e k j
  case nil => rfl
  case cons f fs ih =>
    rw [storeFields_cons]
    cases j
    case zero =>
      rw [get?_storeFields_of_ne, get?_setGlobal, if_pos rfl]
      · rfl
      · intro j h
        have := fieldAt_inj h
        omega
    case succ j =>
      have hk : k + (j + 1) + 1 = k + 1 + j + 1 := by omega
      rw [hk, ih, get?_setGlobal, if_neg]
      · rfl
      · intro h
        have := fieldAt_inj h
        omega

theorem setFields_eq : e.setFields record fs =
    ((e.setGlobal (fieldAt 0) ⟨record⟩).storeFields 0 fs).setGlobal "NF" (.ofNat fs.length) := rfl

end Store

theorem get?_dropFields (hx : isFieldName x) : e.dropFields.globals.get? x = none := by
  rw [dropFields, Table.get?_restrict, hx]
  rfl

def load (e : Environment) (record : String) (fs : List String) (nr fnr : Value) : Environment :=
  ((e.dropFields.setFields record fs).setGlobal "NR" nr).setGlobal "FNR" fnr

section Load

variable {nr fnr : Value}

theorem get?_load_of_isFieldName (hx : isFieldName x) :
    (e.load record fs nr fnr).globals.get? x =
      ((e.dropFields.setGlobal (fieldAt 0) ⟨record⟩).storeFields 0 fs).globals.get? x := by
  have hn (y : String) (hy : isFieldName y = false) : x ≠ y := by
    rintro rfl
    cases hx.symm.trans hy
  rw [load, get?_setGlobal, if_neg (hn _ rfl), get?_setGlobal, if_neg (hn _ rfl), setFields_eq,
    get?_setGlobal, if_neg (hn _ rfl)]

theorem get?_load_fieldAt (i : Nat) : (e.load record fs nr fnr).globals.get? (fieldAt i) =
    (record :: fs)[i]?.map fun s => .scalar ⟨s⟩ := by
  rw [get?_load_of_isFieldName (isFieldName_fieldAt i)]
  cases i
  case zero =>
    rw [get?_storeFields_of_ne, get?_setGlobal, if_pos rfl]
    · rfl
    · intro j h
      cases fieldAt_inj h
  case succ i =>
    have hi : i + 1 = 0 + i + 1 := by omega
    rw [hi, get?_storeFields, get?_setGlobal, if_neg, get?_dropFields (isFieldName_fieldAt _),
      Option.or_none]
    · rw [Nat.zero_add]
      rfl
    · intro h
      cases fieldAt_inj h

theorem get?_load_of_ne (hx : isFieldName x) (h : ∀ i, x ≠ fieldAt i) :
    (e.load record fs nr fnr).globals.get? x = none := by
  rw [get?_load_of_isFieldName hx, get?_storeFields_of_ne fun j => h _, get?_setGlobal,
    if_neg (h 0), get?_dropFields hx]

theorem get?_load_of_plain (hx : isFieldName x = false) (hf : x ≠ "NF") (hn : x ≠ "NR")
    (hr : x ≠ "FNR") : (e.load record fs nr fnr).globals.get? x = e.globals.get? x := by
  have hp : IsPlain ⟨.globals, x⟩ := fun _ => hx
  have hc : (e.dropFields.setFields record fs).cell? ⟨.globals, x⟩ = e.cell? ⟨.globals, x⟩ :=
    (cell?_setFields hp fun h => hf (congrArg Reference.name h)).trans (cell?_dropFields hp)
  rw [load, get?_setGlobal, if_neg hr, get?_setGlobal, if_neg hn]
  exact hc

theorem global_load_count : (e.load record fs nr fnr).global "NF" = .ok (.ofNat fs.length) := by
  have hc : (e.load record fs nr fnr).globals.get? "NF" = some (.scalar (.ofNat fs.length)) := by
    rw [load, get?_setGlobal, if_neg (by decide), get?_setGlobal, if_neg (by decide), setFields_eq,
      get?_setGlobal, if_pos rfl]
  rw [global, hc]

end Load

theorem fieldName_of_whole {v : Value} {negative : Bool} {size : Magnitude}
    (hv : v.number = .finite negative size) (hi : Number.signed negative size = i * Number.one) :
    fieldName v = .ok (fieldAt i) := by
  cases negative
  case false =>
    have hu : size.units = i * Number.one := by
      rw [Number.signed, if_neg Bool.false_ne_true] at hi
      exact Int.ofNat.inj hi
    rw [fieldName, hv, Number.canonical_of_whole false hu]
    rfl
  case true =>
    -- Zero may have a sign, which is not written.
    have hu : size.units = 0 ∧ i * Number.one = 0 := by
      rw [Number.signed, if_pos rfl, ← Int.natCast_mul] at hi
      omega
    have hz : i = 0 := (Nat.mul_eq_zero.mp hu.2).resolve_right (Nat.ne_of_gt Number.one_pos)
    have hn : (Number.finite true size).isNegative = false := by
      rw [Number.isNegative, Number.isZero, hu.1]
      rfl
    have hc := Number.canonical_of_whole true (hu.1.trans hu.2.symm)
    rw [fieldName, hv, hn, hc, hz]
    rfl

-- The fields are those of a record: each is read under every value that counts as its number, and
-- beyond them there is nothing.
structure HasFields (e : Environment) (record : String) (fields : List String) : Prop where
  count : fields.length < 10 ^ 15 → e.global "NF" = .ok ⟨toString fields.length⟩
  field : ∀ (v : Value) (negative : Bool) (size : Magnitude) (i : Nat),
            v.number = .finite negative size → Number.signed negative size = i * Number.one →
              ∃ x, fieldName v = .ok x ∧ e.field x = ⟨(record :: fields)[i]?.getD ""⟩
  named : ∀ x, isFieldName x →
            ((e.globals.get? x).isSome ↔ ∃ i ≤ fields.length, x = "$" ++ toString i)

theorem hasFields_load {nr fnr : Value} : (e.load record fs nr fnr).HasFields record fs where
  count h := by rw [global_load_count, Value.ofNat_eq (by omega)]
  field v negative size i hv hi := by
    refine ⟨fieldAt i, fieldName_of_whole hv hi, ?_⟩
    rw [field, get?_load_fieldAt]
    cases (record :: fs)[i]? <;> rfl
  named x hx := by
    constructor
    case mp =>
      intro hs
      by_cases hi : ∃ i, x = fieldAt i
      case pos =>
        obtain ⟨i, rfl⟩ := hi
        rw [get?_load_fieldAt, Option.isSome_map] at hs
        obtain ⟨_, hs⟩ := Option.isSome_iff_exists.mp hs
        exact ⟨i, Nat.le_of_lt_succ (List.getElem?_eq_some_iff.mp hs).1, rfl⟩
      case neg =>
        rw [get?_load_of_ne hx fun i hn => hi ⟨i, hn⟩] at hs
        cases hs
    case mpr =>
      rintro ⟨i, hi, rfl⟩
      change ((e.load record fs nr fnr).globals.get? (fieldAt i)).isSome
      rw [get?_load_fieldAt, List.getElem?_eq_getElem (Nat.lt_succ_of_le hi)]
      rfl

end Environment

namespace Run

variable {m m' : Machine} {x record : String} {v : Value}

theorem global_eq_ok (h : (global x).on m = (.ok v, m')) :
    m' = m ∧ m.environment.global x = .ok v := by
  rw [show global x = inspect none (·.global x) from rfl, inspect_on] at h
  obtain ⟨hv, hm⟩ := Prod.mk.inj h
  cases hg : m.environment.global x
  case error =>
    rw [hg] at hv
    cases hv
  case ok =>
    rw [hg] at hv
    cases hv
    exact ⟨hm.symm, rfl⟩

theorem setRecord_eq_ok [Patterns] (h : (setRecord record).on m = (.ok (), m')) :
    ∃ fs fields separators, m.environment.global "FS" = .ok fs ∧
      splitText? record fs.text = some (fields, separators) ∧
      m'.environment = m.environment.dropFields.setFields record fields := by
  rcases setRecord_cases m record with ⟨f, _, ho⟩ | ⟨fs, fields, separators, hf, hs, ho⟩
  · rw [ho] at h
    cases h
  · rw [ho] at h
    cases h
    exact ⟨fs, fields, separators, hf, hs, rfl⟩

theorem loadRecord_eq_ok [Patterns] (h : loadRecord.on m = (.ok true, m')) :
    ∃ record fs fields separators nr fnr, m.records[m.cursor]? = some record ∧
      m.environment.global "FS" = .ok fs ∧
      splitText? record fs.text = some (fields, separators) ∧
      m'.environment = m.environment.load record fields nr fnr := by
  have hg : (get : Run Machine).on m = (.ok m, m) := rfl
  have hi : (input (.sought m.records[m.cursor]?)).on m
      = (.ok (), m.note (.input (.sought m.records[m.cursor]?))) := rfl
  rw [loadRecord, on_bind_ok hg, on_bind_ok hi] at h
  cases hr : m.records[m.cursor]?
  case none =>
    rw [hr] at h
    cases h
  case some record =>
    rw [hr] at h
    have hc : (change fun s => { s with cursor := s.cursor + 1 }).on
        (m.note (.input (.sought (some record)))) = (.ok (), m.take record) := rfl
    rw [on_bind_ok hc] at h
    obtain ⟨nr, m₁, hn, h⟩ := on_bind_eq_ok h
    obtain ⟨rfl, _⟩ := global_eq_ok hn
    obtain ⟨fnr, m₁, hn, h⟩ := on_bind_eq_ok h
    obtain ⟨rfl, _⟩ := global_eq_ok hn
    obtain ⟨_, m₁, hs, h⟩ := on_bind_eq_ok h
    obtain ⟨fs, fields, separators, hf, hs, he⟩ := setRecord_eq_ok hs
    cases h
    let next (v : Value) : Value := .ofNumber (v.number.add (.ofNat 1))
    refine ⟨record, fs, fields, separators, next nr, next fnr, rfl, hf, hs, ?_⟩
    exact congrArg (fun e => (e.setGlobal "NR" (next nr)).setGlobal "FNR" (next fnr)) he

end Run

-- After a record is loaded the fields are those that it is split into, whatever fields there were
-- before. Of the other globals only their number and the counters are changed.
theorem fields_of_loadRecord [Patterns] {m m' : Machine}
    (h : Run.loadRecord.on m = (.ok true, m')) :
    ∃ record fs fields separators, m.records[m.cursor]? = some record ∧
      m.environment.global "FS" = .ok fs ∧
      splitText? record fs.text = some (fields, separators) ∧
      m'.environment.HasFields record fields ∧
      ∀ x, Environment.isFieldName x = false → x ≠ "NF" → x ≠ "NR" → x ≠ "FNR" →
        m'.environment.globals.get? x = m.environment.globals.get? x := by
  obtain ⟨record, fs, fields, separators, nr, fnr, hr, hf, hs, he⟩ := Run.loadRecord_eq_ok h
  refine ⟨record, fs, fields, separators, hr, hf, hs, ?_, fun x hx hn hnr hfnr => ?_⟩
  · rw [he]
    exact Environment.hasFields_load
  · rw [he]
    exact Environment.get?_load_of_plain hx hn hnr hfnr

-- A field that no record has is gone, and the others are those of the record.
theorem fields_of_loadRecord_stale :
    ∃ m m' : Machine, m.environment.globals.contains "$1.5" ∧ Run.loadRecord.on m = (.ok true, m') ∧
      m'.environment.HasFields "a b" ["a", "b"] := by
  let m : Machine :=
    { records := #["a b"], environment := Environment.initial.setGlobal "$1.5" ⟨"c"⟩ }
  have hl : (Run.loadRecord.on m).1.toOption = some true := by decide +kernel
  cases hm : Run.loadRecord.on m
  case mk r m' =>
    rw [hm] at hl
    cases r
    case error => cases hl
    case ok loaded =>
      cases hl
      obtain ⟨record, fs, fields, separators, hr, hf, hs, hh, _⟩ := fields_of_loadRecord hm
      refine ⟨m, m', by decide +kernel, hm, ?_⟩
      cases hr
      cases hf
      have hp : splitText? "a b" " " = some (["a", "b"], [" "]) := by decide +kernel
      cases hp.symm.trans hs
      exact hh

end PatternAction
