import CostTape.Recording.Session

/-! All sessions ever started, and the one that records. -/

namespace CostTape

structure Studio where
  sessions : Array Session
  /-- The place of the session that records, if any. -/
  active : Option Nat
deriving DecidableEq

namespace Studio

def empty : Studio :=
  ⟨#[], none⟩

/-- The session at a place; where there is none, one that rejects everything. -/
def session (studio : Studio) (place : Option Nat) : Session :=
  (place.bind (studio.sessions[·]?)).getD .absent

def activeSession? (studio : Studio) : Option Session :=
  studio.active.bind (studio.sessions[·]?)

def start (studio : Studio) (label : String) :
    Except RecordingFault (Nat × Studio) :=
  match studio.activeSession? with
  | some session => .error (.sessionActive session.label)
  | none =>
      .ok (studio.sessions.size,
        ⟨studio.sessions.push (.fresh label), some studio.sessions.size⟩)

/-- Freezes the graph of the active session and hands it out.  No other session
can be stopped. -/
def stop (studio : Studio) (place : Option Nat) :
    Except RecordingFault (Graph × Studio) :=
  match place with
  | some place =>
      let session := studio.session (some place)
      if session.isRecording ∧ studio.active = some place then
        .ok (session.stop.graph,
          ⟨studio.sessions.setIfInBounds place session.stop, none⟩)
      else
        .error (.notRecording "stop session")
  | none => .error (.notRecording "stop session")

def stopActive (studio : Studio) : Except RecordingFault (Graph × Studio) :=
  match studio.active with
  | none => .error (.notRecording "stop recording")
  | some place => studio.stop (some place)

def runStep (studio : Studio) (place : Option Nat) (step : StateM Session α) :
    α × Studio :=
  let (result, session) := step.run (studio.session place)
  match place with
  | some place =>
      (result, { studio with sessions := studio.sessions.setIfInBounds place session })
  | none => (result, studio)

end Studio

end CostTape
