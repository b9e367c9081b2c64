import TriplePass.Proofs.Harness.Milestones
import TriplePass.Proofs.Text.Utf8

/-! # What a stretch of a run shows

The output of the tools that the harness passes on is read off the events of a session, apart for
each stream. Between two sessions it has shown a text; what stretches in a row show is shown in
that order. As long as no child writes for itself, the standard output holds just that.
-/
namespace TriplePass

namespace Event

def isInherited : Event → Bool
  | .inherited .. => true
  | _ => false

def passedText (stream : Stream) : Event → String
  | .forwarded s text => if s = stream then text else ""
  | _ => ""

/-- The output of the tools that events pass on to a stream. -/
def passed (stream : Stream) (ev : List Event) : String :=
  String.join (ev.map (passedText stream))

variable {stream : Stream}

@[simp] theorem passed_nil : passed stream [] = "" := rfl

@[simp] theorem passed_append (ev more : List Event) :
    passed stream (ev ++ more) = passed stream ev ++ passed stream more := by
  simp [passed]

theorem flatMap_filter {α : Type} {f : Event → List α} {p : Event → Bool}
    (h : ∀ e, p e = false → f e = []) (ev : List Event) :
    (ev.filter p).flatMap f = ev.flatMap f := by
  induction ev with
  | nil => rfl
  | cons e ev ih =>
    cases he : p e with
    | true => rw [List.filter_cons_of_pos he, List.flatMap_cons, List.flatMap_cons, ih]
    | false =>
      rw [List.filter_cons_of_neg (by simp [he]), List.flatMap_cons, ih, h e he, List.nil_append]

theorem passed_output (ev : List Event) : passed stream (ev.filter isOutput) = passed stream ev := by
  apply String.toList_injective
  simp only [passed, String.toList_join, List.flatMap_map]
  refine flatMap_filter (fun e he => ?_) ev
  cases e <;> first | rfl | cases he

theorem bytes_output (ev : List Event) :
    (ev.filter isOutput).flatMap (bytes .stdout) = ev.flatMap (bytes .stdout) := by
  refine flatMap_filter (fun e he => ?_) ev
  cases e <;> first | rfl | cases he

theorem bytes_of_own {e : Event} (he : isInherited e = false) :
    e.bytes .stdout = Utf8.encode (passedText .stdout e) := by
  cases e with
  | inherited => cases he
  | forwarded s text =>
    cases s with
    | stdout => rfl
    | stderr => exact Utf8.encode_empty.symm
  | _ => exact Utf8.encode_empty.symm

/-- Messages of the harness never go to the standard output, so there it writes what it passes
on. -/
theorem bytes_passed (ev : List Event) :
    (ev.filter (!isInherited ·)).flatMap (bytes .stdout) = Utf8.encode (passed .stdout ev) := by
  calc (ev.filter (!isInherited ·)).flatMap (bytes .stdout)
      = (ev.filter (!isInherited ·)).flatMap (Utf8.encode ∘ passedText .stdout) := by
        rw [List.flatMap_def, List.flatMap_def, List.map_congr_left]
        intro e he
        exact bytes_of_own (by simpa using (List.mem_filter.1 he).2)
    _ = ev.flatMap (Utf8.encode ∘ passedText .stdout) := by
        refine flatMap_filter (fun e he => ?_) ev
        cases e with
        | inherited => exact Utf8.encode_empty
        | _ => cases he
    _ = Utf8.encode (passed .stdout ev) := by
        simp [passed, Utf8.encode_eq, List.flatMap_map, List.flatMap_assoc, Function.comp_def]

end Event

namespace Session
variable {s u v : Session} {stream : Stream}

def passedOn (s : Session) (stream : Stream) : String :=
  Event.passed stream s.events

/-- What the harness has written to a stream, without what children have written to it. -/
def own (s : Session) (stream : Stream) : Bytes :=
  (s.events.filter (!·.isInherited)).flatMap (Event.bytes stream)

@[simp] theorem passedOn_add (s : Session) (ev : List Event) :
    (s.add ev).passedOn stream = s.passedOn stream ++ Event.passed stream ev :=
  Event.passed_append s.events ev

@[simp] theorem passedOn_withTree (s : Session) (t : FileTree) :
    (s.withTree t).passedOn stream = s.passedOn stream := rfl

theorem passedOn_of_output (h : u.output = s.output) (stream : Stream) :
    u.passedOn stream = s.passedOn stream := by
  have hpassed : Event.passed stream u.output = Event.passed stream s.output := by rw [h]
  rw [output, output, Event.passed_output, Event.passed_output] at hpassed
  exact hpassed

/-- Between two sessions the harness has passed a text on to each stream, and nobody has written
anything else to the standard output. -/
structure Shows (s u : Session) (text : Stream → String) : Prop where
  passedOn : ∀ stream, u.passedOn stream = s.passedOn stream ++ text stream
  stdout : u.written .stdout = s.written .stdout ++ Utf8.encode (text .stdout)

namespace Shows
variable {text more : Stream → String}

theorem nothing (h : u.output = s.output) : Shows s u fun _ => "" := by
  constructor
  · intro stream
    rw [passedOn_of_output h stream, String.append_empty]
  · have hbytes : u.output.flatMap (Event.bytes .stdout) = s.output.flatMap (Event.bytes .stdout) :=
      congrArg (List.flatMap (Event.bytes .stdout)) h
    rw [output, output, Event.bytes_output, Event.bytes_output] at hbytes
    rw [written, hbytes, Utf8.encode_empty, List.append_nil, written]

theorem add {ev : List Event} (h : ev.filter Event.isInherited = []) (s : Session) :
    Shows s (s.add ev) fun stream => Event.passed stream ev := by
  have hall : ev.filter (!Event.isInherited ·) = ev := by
    refine List.filter_eq_self.2 fun e he => ?_
    simpa using List.filter_eq_nil_iff.1 h e he
  constructor
  · exact fun stream => passedOn_add s ev
  · rw [← Event.bytes_passed, hall, written, events_add, List.flatMap_append]
    rfl

theorem trans (h : Shows s v text) (h' : Shows v u more) :
    Shows s u fun stream => text stream ++ more stream := by
  constructor
  · intro stream
    rw [h'.passedOn, h.passedOn, String.append_assoc]
  · rw [h'.stdout, h.stdout, Utf8.encode_append, List.append_assoc]

theorem congr (h : Shows s u text) (heq : ∀ stream, text stream = more stream) :
    Shows s u more := by
  have hfun : text = more := funext heq
  exact hfun ▸ h

end Shows
end Session

namespace Run
variable {stream : Stream}

@[simp] theorem passed_logged (text : String) : Event.passed stream (logged text) = "" := by
  unfold logged
  split <;> simp [Event.passed, Event.passedText]

@[simp] theorem passed_inherited (other : Stream) (bytes : Bytes) :
    Event.passed stream (inherited other bytes) = "" := by
  unfold inherited
  split <;> simp [Event.passed, Event.passedText]

@[simp] theorem inherited_logged (text : String) :
    (logged text).filter Event.isInherited = [] := by
  unfold logged
  split <;> rfl

@[simp] theorem inherited_forwarded (other : Stream) (text : String) :
    (forwarded other text).filter Event.isInherited = [] := by
  unfold forwarded
  split <;> rfl

end Run

@[simp] theorem Running.passed_waiting {stream : Stream} (r : Running) (t : FileTree) :
    Event.passed stream (r.waiting t) = "" := by
  have hwaited : Event.passed stream [.waited r.pass] = "" := by
    simp [Event.passed, Event.passedText]
  unfold waiting
  dsimp only
  split
  · exact hwaited
  · simp only [Event.passed_append, Run.passed_inherited, hwaited, String.append_empty]

end TriplePass
