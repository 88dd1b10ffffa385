import Y86.Controller.Control
import Y86.Session.Command

/-!
# Commands to a controller

`Controller.perform` carries out one command, and `Controller.afterAll` a whole sequence of them. What loads, moves or
leaves a trace is an operation of the controller; all other commands read, change the breakpoint table or say something,
and they are carried out on its view.
-/

namespace Y86

namespace Controller

/-- Carries out a command that leaves the trace, the machine and the control of them alone. -/
def performAside (c : Controller) (command : Command) : Reply × Controller :=
  let (reply, s) := c.view.perform command
  (reply, { c with breakpoints := s.breakpoints, added := s.added, logs := s.logs })

/-- Carries out a command. -/
def perform (c : Controller) : Command → Reply × Controller
  | .load text => (c.load text).map .flag id
  | .reset => (.done, c.reset)
  | .step => c.step.map .flag id
  | .resume => c.resume.map .flag id
  | .run => c.run.map .flag id
  | .tick => c.tick.map .flag id
  | .pause => (.done, c.pause)
  | .restore r => (c.restore r).map .flag id
  | command => c.performAside command

/-- The controller after a command. -/
def after (c : Controller) (command : Command) : Controller := (c.perform command).2

/-- The controller after a sequence of commands. -/
def afterAll (c : Controller) (commands : List Command) : Controller := commands.foldl after c

/-- The answers to a sequence of commands. -/
def replies (c : Controller) : List Command → List Reply
  | [] => []
  | command :: commands => (c.perform command).1 :: (c.after command).replies commands

end Controller

end Y86
