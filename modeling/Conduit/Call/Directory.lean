/-
# Directories of services

A process reaches the services it uses through a directory. It starts with a
channel to init alone; a service without a channel of its own is reached through
init.
-/

import Conduit.Call.Rpc

namespace Conduit

/-- The services that a process knows. -/
inductive Service where
  | init
  | memory
  | process
  | serial
  deriving DecidableEq

/-- The channels of a process to the services. -/
structure Directory (ρ : Type) where
  /-- The channel to init. -/
  init : ρ
  /-- The channel to the memory server, if it has one of its own. -/
  memory : Option ρ := none
  /-- The channel to the process manager, if it has one of its own. -/
  process : Option ρ := none
  /-- The channel to the serial driver, if it has one of its own. -/
  serial : Option ρ := none

namespace Directory

variable {ρ : Type}

/-- The channel of a service's own. -/
def dedicated? (d : Directory ρ) : Service → Option ρ
  | .init => some d.init
  | .memory => d.memory
  | .process => d.process
  | .serial => d.serial

/-- Tells whether a service has a channel of its own. -/
def isDedicated (d : Directory ρ) (service : Service) : Bool := (d.dedicated? service).isSome

/-- The channel through which a service is reached. -/
def channel (d : Directory ρ) (service : Service) : ρ := (d.dedicated? service).getD d.init

/-- The directory with a channel of a service's own. -/
def install (d : Directory ρ) (service : Service) (channel : ρ) : Directory ρ :=
  match service with
  | .init => { d with init := channel }
  | .memory => { d with memory := some channel }
  | .process => { d with process := some channel }
  | .serial => { d with serial := some channel }

/-- The directory with the channel replaced through which a service is reached. -/
def setChannel (d : Directory ρ) (service : Service) (channel : ρ) : Directory ρ :=
  if d.isDedicated service then d.install service channel else d.install .init channel

/-- A directory is described by its four channels. -/
def describe (d : Directory ρ) (describeChannel : ρ → String) : String :=
  "RuntimeContext \x7b init: " ++ describeChannel d.init ++ ", memory: " ++ optional d.memory
    ++ ", process: " ++ optional d.process ++ ", serial: " ++ optional d.serial ++ " \x7d"
where
  /-- The description of a channel that may be absent. -/
  optional : Option ρ → String
    | none => "None"
    | some channel => "Some(" ++ describeChannel channel ++ ")"

theorem channel_setChannel (d : Directory ρ) (service : Service) (channel : ρ) :
    (d.setChannel service channel).channel service = channel := by
  obtain ⟨init, memory, process, serial⟩ := d
  cases service <;> cases memory <;> cases process <;> cases serial <;> rfl

end Directory

end Conduit
