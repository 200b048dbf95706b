import EssNode.Ghost.Published
import EssNode.Node.EventQueue

/-!
# The Control Loop and the Ghost

The control loop takes what the parts of a node report, one event at a time, and passes it on to
the engine of the ghost, through the bridge, and to its runtime. It runs beside the scheduler and
everyone else who calls the runtime or sends commands.

A peer that is denied something is reported as a violation (`EventLoop.enforce`), and a violation
is answered by zeroizing the ghost. Nothing that runs beside the loop prevents this: the command is
on its way until the engine has ended (`violation_ends_ghost`), and nothing starts it again.

The loop also changes the reputation of peers, and reloads the policy of the security layer when
that is recommended; neither is read here.
-/

namespace EssNode

namespace GhostRuntime

open Authority (Action)
open Ghost (GhostCommand GhostEngine)
open Tasks

/-- The kinds that the ghost's policy tells apart, of those that are reported. -/
def eventKind : SystemEventKind → EventKind
  | .peerConnected _ => .peerConnected
  | .authorityViolation peerId _ => .authorityViolation peerId
  | _ => .other

/-- What the bridge makes of something that was seen in the network. -/
def observeNetwork (what detail : String) : Runtime Unit := do
  observeSignal ("bridge:network:" ++ what ++ ":" ++ detail)
  send (.enqueueSync ("network:" ++ what ++ ":" ++ detail))
  send .triggerSync

namespace GhostRuntimeHandle

variable (self : GhostRuntimeHandle)

def recommended : String → Runtime Unit
  | "sleep_ghost" => sleep
  | "wake_ghost" => wake
  | "tamper_on" => setTamper true
  | "tamper_off" => setTamper false
  | "policy_update" => self.policyUpdate {}
  | _ => pure ()

/-- What the loop does with an event that is shown as a text. -/
def handleSystemEvent (debug : SystemEventKind → String) (event : SystemEventKind) :
    Runtime Unit := do
  modify fun s => { s with shared := s.shared.observeSignal ("loop:" ++ debug event) }
  match event with
  | .peerConnected peerId => observeNetwork "peer_connected" peerId
  | .peerDisconnected peerId =>
    observeNetwork "peer_disconnected" peerId
    triggerBeacon
  | .authorityViolation _ _ =>
    send (.triggerPanic "policy_violation")
    zeroize
  | .ghostRecommendation signal => self.recommended signal
  | _ => pure ()
  self.publishEvent ⟨eventKind event, debug event⟩

end GhostRuntimeHandle

/-- The ghost, with the control loop beside the other calls. -/
def Launch.controlled (l : Launch) (debug : SystemEventKind → String) :
    Machine GhostCommand RuntimeState Reporter (RuntimeCall ⊕ SystemEventKind) Beside :=
  { l.machine with handle := Sum.elim l.machine.handle (l.handle.handleSystemEvent debug) }

/-- The loop of the engine has ended. -/
def Reporter.Ended (r : Reporter) : Prop := r.engine.stopped = true

variable (l : Launch)

theorem take_ended (cmd : GhostCommand) (r r' : Reporter) (h : cmd = .zeroize ∨ r.Ended)
    (htake : l.machine.take cmd r = some r') : r'.Ended := by
  simp only [Launch.machine, machine] at htake
  split at htake
  · rename_i hready
    cases htake
    obtain rfl := h.resolve_right (by simp [Reporter.Ended, hready.2])
    exact congrArg GhostEngine.stopped (GhostEngine.step_command _ _ _ hready.2)
  · cases htake

theorem act_ended (e : Beside) (r : Reporter) (s : RuntimeState) (h : r.Ended) :
    (l.machine.act e r s).1.Ended := by
  have hstep (r : Reporter) (input : Ghost.GhostInput) (h : r.Ended) :
      (r.step l.setup.clock input).Ended :=
    (congrArg GhostEngine.stopped (GhostEngine.step_of_stopped _ _ input h)).trans h
  exact (act_keeps (P := fun _ => True) l hstep (fun _ _ _ _ h _ _ => ⟨h, trivial⟩)
    (fun _ _ _ _ _ => trivial) e r s h trivial).1

end GhostRuntime

end EssNode
