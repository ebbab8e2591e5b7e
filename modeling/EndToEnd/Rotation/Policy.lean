import EndToEnd.Level
import EndToEnd.Time.Duration

/-!
# When an epoch ends

An epoch for sending ends when its level is no longer the one asked for, when it has carried enough
messages, when it is old enough, or on demand.
-/

namespace EndToEnd.Rotation

/-- The limits of an epoch. -/
structure Policy where
  /-- How long an epoch is used. -/
  interval : Duration
  /-- How many messages an epoch carries. -/
  threshold : UInt64
  /-- How long an epoch that has ended can still be received. -/
  grace : Duration
  deriving DecidableEq, Repr, Inhabited

/-- Why an epoch ends. -/
inductive Reason where
  | messageThreshold
  | intervalElapsed
  | levelChanged
  | forced
  deriving DecidableEq, Repr

/-- The name of a reason. -/
def Reason.name : Reason → String
  | messageThreshold => "MessageThreshold"
  | intervalElapsed => "IntervalElapsed"
  | levelChanged => "LevelChanged"
  | forced => "Forced"

/-- The wording of a reason. -/
def Reason.text : Reason → String
  | messageThreshold => "message threshold reached"
  | intervalElapsed => "rotation interval elapsed"
  | levelChanged => "encryption level changed"
  | forced => "forced"

/-- What decides about the end of an epoch. -/
structure Usage where
  createdAt : UInt64
  messages : UInt64
  level : Level
  deriving DecidableEq, Repr

namespace Policy

/-- Why an epoch should end before a message at some level is sent, if it should. -/
def evaluate (p : Policy) (used : Usage) (requested : Level) (now : UInt64) : Option Reason :=
  if used.level ≠ requested then some .levelChanged
  else if p.threshold ≤ used.messages then some .messageThreshold
  else if p.interval.millis ≤ saturatingSub now used.createdAt then some .intervalElapsed
  else none

/-- When an epoch that began at some time is old enough. -/
def expiry (p : Policy) (createdAt : UInt64) : UInt64 := saturatingAdd createdAt p.interval.millis

/-- When an epoch that ended at some time can no longer be received. -/
def graceDeadline (p : Policy) (endedAt : UInt64) : UInt64 := saturatingAdd endedAt p.grace.millis

end Policy

end EndToEnd.Rotation
