import ArchState.Proofs.Machine.Recorded

/-! # Steps back through a run

A run of operations sends one record for each operation that it does not refuse. Stepping back
takes the records from the log, newest first, and each of them takes the values of the machine
back to what they were just before its operation. Records that the log had no room for are the
oldest ones, so they change nothing about the steps back that are still possible.
-/
namespace ArchState.Machine
variable {m x later first : Machine} {c : Nat}

def sent (m : Machine) : List Mutation → List UndoRecord
  | [] => []
  | op :: ops => Signal.recordsTo .log (m.mutate op).signals ++ (m.mutate op).state.sent ops

def backsteps (m : Machine) : Nat → Machine
  | 0 => m
  | k + 1 => (m.backsteps k).backstep.state

/-- Records, newest first, each of which takes a machine back to the point beside it, from the
machine after a run to the first one. -/
inductive Rewinds (first : Machine) : Machine → List UndoRecord → List Machine → Prop where
  | start : Rewinds first first [] []
  | back {later earlier : Machine} {record : UndoRecord} {records : List UndoRecord}
      {points : List Machine} :
      record.Undoes later earlier → Rewinds first earlier records points →
      Rewinds first later (record :: records) (earlier :: points)

theorem Rewinds.length_eq {records : List UndoRecord} {points : List Machine}
    (h : Rewinds first later records points) : points.length = records.length := by
  induction h with
  | start => rfl
  | back _ _ ih => rw [List.length_cons, List.length_cons, ih]

theorem backstep_of_records {earlier : Machine} {record : UndoRecord} {log : UndoLog}
    {rest : List UndoRecord} (hrecord : record.Undoes later earlier) (hx : x.Agrees later)
    (hlog : x.log = some log) (hrecords : log.records = record :: rest) :
    x.backstep.answer = .ok true ∧ (∀ sink, Signal.recordsTo sink x.backstep.signals = []) ∧
      x.backstep.state.Agrees earlier ∧
      ∃ left, x.backstep.state.log = some left ∧ left.records = rest := by
  obtain ⟨left, hpop, hleft⟩ := UndoLog.pop?_of_records hrecords
  have hpopped : x.log.bind UndoLog.pop? = some (record, left) := by
    rw [hlog]
    exact hpop
  obtain ⟨hanswer, hagrees, hlogleft, hsilent⟩ :=
    hrecord { x with log := some left } ⟨hx.memory, hx.integers, hx.floats, hx.controls⟩
  rw [backstep, hpopped]
  refine ⟨?_, hsilent, hagrees, left, hlogleft, hleft⟩
  change (restore { x with log := some left } record).answer.map (fun _ => true) = .ok true
  rw [hanswer]
  rfl

theorem backsteps_succ (x : Machine) (k : Nat) :
    x.backsteps (k + 1) = x.backstep.state.backsteps k := by
  induction k with
  | zero => rfl
  | succ k ih => rw [backsteps, ih, backsteps]

/-- While the log has records of a run, `k` steps back are followed by one to the point before
the `k`-th newest operation. -/
theorem Rewinds.backsteps {records old : List UndoRecord} {points : List Machine} {log : UndoLog}
    (h : Rewinds first later records points) (hx : x.Agrees later) (hlog : x.log = some log)
    (hrecords : log.records = (records ++ old).take c) {k : Nat}
    (hk : k < min c records.length) :
    (x.backsteps k).backstep.answer = .ok true ∧
      (∀ sink, Signal.recordsTo sink (x.backsteps k).backstep.signals = []) ∧
      (∃ left, (x.backsteps (k + 1)).log = some left ∧
        left.records = log.records.drop (k + 1)) ∧
      ∃ point, points[k]? = some point ∧ (x.backsteps (k + 1)).Agrees point := by
  induction k generalizing x later records points c log with
  | zero =>
    cases h with
    | start => simp at hk
    | back hundoes hrest =>
      obtain ⟨c, rfl⟩ := Nat.exists_eq_succ_of_ne_zero (Nat.ne_of_gt (Nat.lt_min.mp hk).1)
      obtain ⟨hanswer, hsilent, hagrees, left, hleft, hdrop⟩ :=
        backstep_of_records hundoes hx hlog hrecords
      refine ⟨hanswer, hsilent, ⟨left, hleft, ?_⟩, _, rfl, hagrees⟩
      rw [hdrop, hrecords]
      rfl
  | succ k ih =>
    cases h with
    | start => simp at hk
    | back hundoes hrest =>
      obtain ⟨c, rfl⟩ := Nat.exists_eq_succ_of_ne_zero (Nat.ne_of_gt (Nat.zero_lt_of_lt
        (Nat.lt_min.mp hk).1))
      obtain ⟨-, -, hagrees, left, hleft, hdrop⟩ :=
        backstep_of_records hundoes hx hlog hrecords
      -- one step back leaves a log with room for one record less of a run that is one shorter
      rw [List.length_cons, ← Nat.succ_eq_add_one, ← Nat.succ_eq_add_one, Nat.succ_min_succ,
        Nat.succ_lt_succ_iff] at hk
      have hshorter := ih hrest hagrees hleft hdrop hk
      rw [hdrop] at hshorter
      rw [backsteps_succ, backsteps_succ, hrecords]
      exact hshorter

end ArchState.Machine
