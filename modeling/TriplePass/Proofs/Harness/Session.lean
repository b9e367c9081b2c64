import TriplePass.Harness
import TriplePass.Proofs.Effect

/-! # What the steps of a run add to a session

A run only ever adds events at the end of a session, moves on to another file tree, and lets the
resolver learn. The steps are given here as equations: the value and the session that they end in.
The only one that can fail is to pass a text on that the standard output does not take; it adds
nothing then.
-/
namespace TriplePass

namespace Session

def add (s : Session) (ev : List Event) : Session :=
  { s with events := s.events ++ ev }

def withTree (s : Session) (t : FileTree) : Session :=
  { s with tree := t }

@[simp] theorem tree_add (s : Session) (ev : List Event) : (s.add ev).tree = s.tree := rfl
@[simp] theorem events_add (s : Session) (ev : List Event) :
    (s.add ev).events = s.events ++ ev := rfl
@[simp] theorem add_nil (s : Session) : s.add [] = s := by
  simp [add]

@[simp] theorem add_add (s : Session) (ev more : List Event) :
    (s.add ev).add more = s.add (ev ++ more) := by
  simp [add]

end Session

namespace Run

def logged (text : String) : List Event :=
  if text = "" then [] else [.logged text]

def forwarded (stream : Stream) (text : String) : List Event :=
  if text = "" then [] else [.forwarded stream (Console.echo text)]

def inherited (stream : Stream) (bytes : Bytes) : List Event :=
  if bytes = [] then [] else [.inherited stream bytes]

theorem record_eq (e : Event) (s : Session) : record e s = .ok () (s.add [e]) := rfl

theorem log_eq (text : String) (s : Session) : log text s = .ok () (s.add (logged text)) := by
  by_cases h : text = ""
  · simp only [log, logged, if_pos h, Session.add_nil]
    rfl
  · simp only [log, logged, if_neg h, record_eq]

theorem inherit_eq (stream : Stream) (bytes : Bytes) (s : Session) :
    inherit stream bytes s = .ok () (s.add (inherited stream bytes)) := by
  by_cases h : bytes = []
  · simp only [inherit, inherited, if_pos h, Session.add_nil]
    rfl
  · simp only [inherit, inherited, if_neg h, record_eq]

/-- A step for every element of a list, none of which can fail. -/
theorem forM_eq {α : Type} {f : α → Run Unit} {g : α → List Event}
    (hf : ∀ a s, f a s = .ok () (s.add (g a))) (l : List α) (s : Session) :
    l.forM f s = .ok () (s.add (l.flatMap g)) := by
  induction l generalizing s with
  | nil =>
    simp only [List.flatMap_nil, Session.add_nil]
    rfl
  | cons a l ih =>
    change (f a >>= fun _ => l.forM f) s = _
    rw [Effect.bind_of_ok (hf a s), ih, Session.add_add, List.flatMap_cons]

end Run

namespace Harness
variable {h : Harness} {text : Stream → String} {s u : Session} {e : Failure}

theorem echo_eq (h : Harness) (stream : Stream) (text : String) (s : Session) :
    h.echo stream text s =
      if stream = .stderr ∨ h.takes text = true then .ok () (s.add (Run.forwarded stream text))
      else .error .unwritable s := by
  unfold echo Run.forwarded
  by_cases hempty : text = ""
  · have htakes : h.takes text = true := by
      rw [hempty]
      rfl
    rw [if_pos hempty, if_pos hempty, if_pos (.inr htakes), Session.add_nil]
    rfl
  rw [if_neg hempty, if_neg hempty]
  by_cases htaken : stream = .stderr ∨ h.takes text = true
  · rw [if_pos htaken, if_pos (by simpa using htaken)]
    exact Run.record_eq _ s
  · rw [if_neg htaken, if_neg (by simpa using htaken)]
    rfl

theorem forward_eq (h : Harness) (text : Stream → String) (s : Session) :
    h.forward text s =
      if h.takes (text .stdout) = true then
        .ok () (s.add (Run.forwarded .stdout (text .stdout) ++
          Run.forwarded .stderr (text .stderr)))
      else .error .unwritable s := by
  have hout := echo_eq h .stdout (text .stdout) s
  unfold forward
  by_cases htakes : h.takes (text .stdout) = true
  · rw [if_pos (.inr htakes)] at hout
    rw [if_pos htakes, Effect.bind_of_ok hout, echo_eq, if_pos (.inl rfl), Session.add_add]
  · rw [if_neg (by simpa using htakes)] at hout
    rw [if_neg htakes, Effect.bind_of_error hout]

/-- Of texts in a row the first that is refused is the last that is tried. -/
theorem echoEach_cases {α : Type} (h : Harness) (text : α → String) (l : List α) (s : Session) :
    ((∀ a ∈ l, h.takes (text a) = true) ∧ l.forM (fun a => h.echo .stdout (text a)) s =
      .ok () (s.add (l.flatMap fun a => Run.forwarded .stdout (text a)))) ∨
    ((∃ a ∈ l, h.takes (text a) = false) ∧ ∃ u, u.tree = s.tree ∧
      l.forM (fun a => h.echo .stdout (text a)) s = .error .unwritable u) := by
  induction l generalizing s with
  | nil => exact .inl ⟨by simp, congrArg (EStateM.Result.ok ()) (Session.add_nil s).symm⟩
  | cons a l ih =>
    have hfirst := echo_eq h .stdout (text a) s
    change _ ∧ (h.echo .stdout (text a) >>= fun _ => l.forM fun a => h.echo .stdout (text a)) s = _ ∨
      _ ∧ ∃ u, _ ∧ (h.echo .stdout (text a) >>= fun _ => l.forM fun a => h.echo .stdout (text a)) s = _
    cases ha : h.takes (text a) with
    | false =>
      rw [if_neg (by simp [ha])] at hfirst
      exact .inr ⟨⟨a, List.mem_cons_self, ha⟩, s, rfl, Effect.bind_of_error hfirst _⟩
    | true =>
      rw [if_pos (.inr ha)] at hfirst
      rw [Effect.bind_of_ok hfirst]
      rcases ih (s.add (Run.forwarded .stdout (text a))) with ⟨hall, heq⟩ | ⟨⟨b, hb, hrefused⟩, hrest⟩
      · rw [heq, Session.add_add]
        exact .inl ⟨List.forall_mem_cons.2 ⟨ha, hall⟩, rfl⟩
      · exact .inr ⟨⟨b, List.mem_cons_of_mem a hb, hrefused⟩, hrest⟩

end Harness

namespace Running

def outcome (r : Running) (t : FileTree) : Outcome :=
  let ending := (r.child.finish t).1
  if r.isCaptured then
    { pass := r.pass, status := ending.status
      stdout := captured ending.stdout, stderr := captured ending.stderr }
  else { pass := r.pass, status := ending.status }

/-- The events of waiting for a child; it writes to the harness's streams unless it is captured. -/
def waiting (r : Running) (t : FileTree) : List Event :=
  let ending := (r.child.finish t).1
  if r.isCaptured then [.waited r.pass]
  else Run.inherited .stdout ending.stdout ++ Run.inherited .stderr ending.stderr ++ [.waited r.pass]

def leaves (r : Running) (t : FileTree) : FileTree :=
  (r.child.finish t).2

def awaited (r : Running) (s : Session) : Session :=
  (s.withTree (r.leaves s.tree)).add (r.waiting s.tree)

theorem outcome_pass (r : Running) (t : FileTree) : (r.outcome t).pass = r.pass := by
  unfold outcome
  dsimp only
  split <;> rfl

theorem wait_eq (r : Running) (s : Session) :
    r.wait s = .ok (r.outcome s.tree) (r.awaited s) := by
  unfold wait awaited waiting outcome leaves
  rw [Effect.get_bind]
  dsimp only
  rw [Effect.set_bind]
  cases hc : r.isCaptured with
  | true =>
    simp only [↓reduceIte]
    rw [Effect.bind_of_ok (Run.record_eq _ _)]
    rfl
  | false =>
    simp only [Bool.false_eq_true, ↓reduceIte]
    rw [Effect.bind_of_ok (Run.inherit_eq _ _ _), Effect.bind_of_ok (Run.inherit_eq _ _ _),
      Effect.bind_of_ok (Run.record_eq _ _)]
    simp only [Session.add_add]
    rfl

end Running
end TriplePass
