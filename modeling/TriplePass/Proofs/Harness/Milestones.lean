import TriplePass.Proofs.Harness.Session

/-! # Milestones of a session

Of the events of a session the milestones tell how the tasks fared: when each was started and
waited for, and when the listings were first looked at. The output of the tools is told apart from
the messages of the harness itself.
-/
namespace TriplePass

/-- A start, a wait, or the first look at the listings. -/
def Event.isMilestone : Event → Bool
  | .spawned _ | .waited _ | .surveyed => true
  | _ => false

@[simp] theorem Event.milestones_spawned (pass : Pass) :
    [Event.spawned pass].filter Event.isMilestone = [.spawned pass] := rfl

/-- Output of a tool, passed on by the harness or written by a child itself. -/
def Event.isOutput : Event → Bool
  | .forwarded .. | .inherited .. => true
  | _ => false

@[simp] theorem Event.output_spawned (pass : Pass) :
    [Event.spawned pass].filter Event.isOutput = [] := rfl

namespace Session

def milestones (s : Session) : List Event :=
  s.events.filter Event.isMilestone

def output (s : Session) : List Event :=
  s.events.filter Event.isOutput

@[simp] theorem milestones_add (s : Session) (ev : List Event) :
    (s.add ev).milestones = s.milestones ++ ev.filter Event.isMilestone := by
  simp [milestones]

@[simp] theorem output_add (s : Session) (ev : List Event) :
    (s.add ev).output = s.output ++ ev.filter Event.isOutput := by
  simp [output]

@[simp] theorem milestones_withTree (s : Session) (t : FileTree) :
    (s.withTree t).milestones = s.milestones := rfl

@[simp] theorem output_withTree (s : Session) (t : FileTree) : (s.withTree t).output = s.output := rfl

end Session

namespace Run

@[simp] theorem milestones_logged (text : String) :
    (logged text).filter Event.isMilestone = [] := by
  unfold logged
  split <;> rfl

@[simp] theorem output_logged (text : String) : (logged text).filter Event.isOutput = [] := by
  unfold logged
  split <;> rfl

@[simp] theorem milestones_forwarded (stream : Stream) (text : String) :
    (forwarded stream text).filter Event.isMilestone = [] := by
  unfold forwarded
  split <;> rfl

@[simp] theorem milestones_inherited (stream : Stream) (bytes : Bytes) :
    (inherited stream bytes).filter Event.isMilestone = [] := by
  unfold inherited
  split <;> rfl

end Run

namespace Running

@[simp] theorem milestones_waiting (r : Running) (t : FileTree) :
    (r.waiting t).filter Event.isMilestone = [.waited r.pass] := by
  unfold waiting
  dsimp only
  split
  · rfl
  · simp only [List.filter_append, Run.milestones_inherited]
    rfl

theorem output_waiting {r : Running} (h : r.isCaptured = true) (t : FileTree) :
    (r.waiting t).filter Event.isOutput = [] := by
  unfold waiting
  dsimp only
  rw [if_pos h]
  rfl

def awaitedAll (rs : List Running) (s : Session) : Session :=
  rs.foldl (fun s r => r.awaited s) s

/-- The files that a row of children leaves, each going on with those of the one before. -/
def settled (rs : List Running) (t : FileTree) : FileTree :=
  rs.foldl (fun t r => r.leaves t) t

theorem settled_append (rs more : List Running) (t : FileTree) :
    settled (rs ++ more) t = settled more (settled rs t) :=
  List.foldl_append

theorem tree_awaitedAll (rs : List Running) (s : Session) :
    (awaitedAll rs s).tree = settled rs s.tree := by
  induction rs generalizing s with
  | nil => rfl
  | cons r rest ih => exact ih (r.awaited s)

theorem milestones_awaitedAll (rs : List Running) (s : Session) :
    (awaitedAll rs s).milestones = s.milestones ++ rs.map fun r => .waited r.pass := by
  induction rs generalizing s with
  | nil => simp [awaitedAll]
  | cons r rest ih =>
    change (awaitedAll rest (r.awaited s)).milestones = _
    rw [ih]
    simp [awaited]

theorem output_awaitedAll {rs : List Running} (hrs : ∀ r ∈ rs, r.isCaptured = true)
    (s : Session) : (awaitedAll rs s).output = s.output := by
  induction rs generalizing s with
  | nil => rfl
  | cons r rest ih =>
    obtain ⟨hr, hrest⟩ := List.forall_mem_cons.mp hrs
    refine (ih hrest (r.awaited s)).trans ?_
    simp [awaited, output_waiting hr]

end Running

end TriplePass
