import PatternAction.Proofs.Run.Evaluation

namespace PatternAction

namespace Run

def report (o : Except Failure Unit × Machine) : Except Failure Int × Machine :=
  (o.1.map fun _ => o.2.exitCode, o.2)

theorem ok_of_report {o : Except Failure Unit × Machine} {code : Int}
    (h : (report o).1 = .ok code) : o.1 = .ok () := by
  obtain ⟨_ | _, m⟩ := o
  case error => cases h
  case ok => rfl

end Run

variable [Patterns]

namespace Run

def toEnd (p : Program) (n k : Nat) : Run Unit := do
  blocks p n p.begins
  unless ← isHalted do eachRecord p n k

theorem program_eq (p : Program) (n : Nat) (records : List String) :
    program p n records = (do
      change fun s => { s with records := records.toArray, cursor := 0 }
      toEnd p n records.length
      change fun s => { s with halted := false }
      blocks p n p.ends
      return (← get).exitCode) := by
  rw [program]
  simp only [toEnd, bind_assoc]
  refine congrArg (change _ >>= ·) (funext fun _ => ?_)
  refine congrArg (blocks p n p.begins >>= ·) (funext fun _ => ?_)
  refine congrArg (isHalted >>= ·) (funext fun halted => ?_)
  cases halted
  case true => exact (pure_bind ..).symm
  case false => rfl

def fromEnd (p : Program) (n : Nat) : Run Unit := do
  change fun s => { s with halted := false }
  blocks p n p.ends

end Run

namespace Machine

def start (m : Machine) (records : List String) : Machine :=
  m.become { m.toState with records := records.toArray, cursor := 0 }

variable {m : Machine} {p : Program} {records : List String}

theorem run_eq : m.run p records = Run.report ((do
    Run.toEnd p stepLimit records.length
    Run.fromEnd p stepLimit : Run Unit).on (m.start records)) := by
  have hb : m.run p records = (do
      let _ ← (do Run.toEnd p stepLimit records.length; Run.fromEnd p stepLimit)
      return (← get).exitCode : Run Int).on (m.start records) := by
    change (Run.program p stepLimit records).on m = _
    rw [Run.program_eq]
    simp only [Run.fromEnd, bind_assoc]
    rfl
  rw [hb]
  generalize (do Run.toEnd p stepLimit records.length; Run.fromEnd p stepLimit : Run Unit) = x
  rcases ho : x.on (m.start records) with ⟨f | _, n⟩
  case error => exact Run.on_bind_error ho
  case ok => exact Run.on_bind_ok ho

end Machine

namespace Logic

variable {L : Logic} {p : Program} {n : Nat}

theorem holds_blocks (hp : L.Permits p.uses) {bs : List Block}
    (hb : L.Permits (bs.flatMap (Block.uses p))) : L.Holds 0 (Run.blocks p n bs) := by
  induction bs
  case nil => exact .pure
  case cons ih =>
    rw [List.flatMap_cons] at hb
    obtain ⟨hb, hbs⟩ := permits_append.mp hb
    exact ((covers hp n).block _ hb).bind fun _ => Holds.closed.guard (ih hbs)

theorem holds_applies (hp : L.Permits p.uses) {test : Option Expr}
    (ht : L.Permits (Expr.optionUses p test)) : L.Holds 0 (Run.applies p n test) := by
  unfold Run.applies
  split
  case h_1 => exact .pure
  case h_2 => exact .bind .field fun _ => .bind .pattern fun _ => .pure
  case h_3 e _ =>
    have he := (covers hp n).eval e (Expr.permits_optionUses.mp ht e rfl)
    exact he.lower.bind fun _ => .pure

theorem holds_rules (hp : L.Permits p.uses) {rs : List Rule}
    (hr : L.Permits (rs.flatMap (Rule.uses p))) : L.Holds 0 (Run.rules p n rs) := by
  induction rs
  case nil => exact .pure
  case cons r rest ih =>
    rw [List.flatMap_cons] at hr
    obtain ⟨hr, hrs⟩ := permits_append.mp hr
    obtain ⟨ht, hb⟩ := permits_append.mp hr
    have hk := Holds.closed.guard (a := ()) (ih hrs)
    refine (holds_applies hp ht).bind fun applies => ?_
    cases applies
    case true => exact ((covers hp n).block _ hb).bind fun _ => hk
    case false => exact hk

section

variable (hp : L.Permits p.uses)
include hp

theorem holds_begins : L.Holds 0 (Run.blocks p n p.begins) :=
  holds_blocks hp (Program.permits_parts.mp hp).1

theorem holds_everyRule : L.Holds 0 (Run.rules p n p.rules) :=
  holds_rules hp (Program.permits_parts.mp hp).2.2.1

theorem holds_ends : L.Holds 0 (Run.blocks p n p.ends) :=
  holds_blocks hp (Program.permits_parts.mp hp).2.1

theorem holds_eachRecord {k : Nat} : L.Holds 0 (Run.eachRecord p n k) := by
  induction k
  case zero => exact .pure
  case succ ih =>
    refine .bind L.holds_loadRecord fun loaded => ?_
    cases loaded
    case false => exact .pure
    case true => exact (holds_everyRule hp).bind fun _ => Holds.closed.guard ih

theorem holds_toEnd {k : Nat} : L.Holds 0 (Run.toEnd p n k) :=
  (holds_begins hp).bind fun _ => Holds.closed.guard (holds_eachRecord hp)

end

end Logic

end PatternAction
