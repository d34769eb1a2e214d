import LayoutPlanner.Graph.Basic

/-!
# Traces

What is reported while a graph is planned, in order: events, and messages in words.  Events are
recorded as data and also appear in the log, with a level and a wording of their own.
-/

namespace LayoutPlanner

/-- A reorder that was put on an edge. -/
structure Insertion where
  reorder : NodeId
  producer : NodeId
  consumer : NodeId
  slot : Nat
  source : LayoutKey
  target : LayoutKey
  reason : ReorderReason
  deriving DecidableEq

inductive Event where
  | reorderInserted (insertion : Insertion)
  | kindDemoted (node : NodeId) (source target : BackendKind) (reason : String)
  | passFinished (pass : String) (changed : Bool)
  deriving DecidableEq

inductive LogLevel where
  | error
  | warn
  | info
  | debug
  | trace
  deriving DecidableEq

def LogLevel.name : LogLevel → String
  | error => "ERROR"
  | warn => "WARN"
  | info => "INFO"
  | debug => "DEBUG"
  | trace => "TRACE"

structure LogLine where
  level : LogLevel
  message : String
  deriving DecidableEq

def LogLine.text (line : LogLine) : String :=
  s!"{line.level.name} {line.message}"

namespace Event

def isInsertion : Event → Bool
  | reorderInserted _ => true
  | kindDemoted .. | passFinished .. => false

def isDemotion : Event → Bool
  | kindDemoted .. => true
  | reorderInserted _ | passFinished .. => false

def logLine : Event → LogLine
  | reorderInserted i =>
    { level := .debug
      message := s!"reorder {i.reorder} on {i.producer} -> {i.consumer}[{i.slot}]: " ++
        s!"{i.source} -> {i.target} ({i.reason.text})" }
  | kindDemoted node source target reason =>
    { level := .warn, message := s!"node {node} demoted from {source} to {target}: {reason}" }
  | passFinished pass changed =>
    { level := .trace, message := s!"pass {pass} finished (changed: {changed})" }

def toJson : Event → Json
  | reorderInserted i => .object [
      ("event", .ofString "reorder_inserted"),
      ("reorder", Document.toJson i.reorder),
      ("producer", Document.toJson i.producer),
      ("consumer", Document.toJson i.consumer),
      ("slot", .nat i.slot),
      ("source", Document.toJson i.source),
      ("target", Document.toJson i.target),
      ("reason", Document.toJson i.reason)]
  | kindDemoted node source target reason => .object [
      ("event", .ofString "kind_demoted"),
      ("node", Document.toJson node),
      ("from", Document.toJson source),
      ("to", Document.toJson target),
      ("reason", .ofString reason)]
  | passFinished pass changed => .object [
      ("event", .ofString "pass_finished"),
      ("pass", .ofString pass),
      ("changed", .bool changed)]

end Event

inductive TraceEntry where
  | event (event : Event)
  | message (line : LogLine)
  deriving DecidableEq

def TraceEntry.event? : TraceEntry → Option Event
  | event e => some e
  | message _ => none

def TraceEntry.logLine : TraceEntry → LogLine
  | event e => e.logLine
  | message line => line

abbrev Trace := List TraceEntry

namespace Trace

def ofEvents (events : List Event) : Trace :=
  events.map .event

/-- The events, in the order in which they were reported. -/
def events (trace : Trace) : List Event :=
  trace.filterMap TraceEntry.event?

/-- The log of the whole trace. -/
def log (trace : Trace) : List LogLine :=
  trace.map TraceEntry.logLine

def insertions (trace : Trace) : Nat :=
  (trace.events.filter Event.isInsertion).length

def demotions (trace : Trace) : Nat :=
  (trace.events.filter Event.isDemotion).length

@[simp]
theorem events_append (first second : Trace) :
    events (first ++ second) = first.events ++ second.events :=
  List.filterMap_append

@[simp]
theorem events_nil : events [] = [] :=
  rfl

@[simp]
theorem events_event (event : Event) (rest : Trace) :
    events (.event event :: rest) = event :: events rest :=
  rfl

@[simp]
theorem events_message (line : LogLine) (rest : Trace) :
    events (.message line :: rest) = events rest :=
  rfl

/-- The events as a document. -/
def toJson (trace : Trace) : Json :=
  .list (trace.events.map Event.toJson)

end Trace

end LayoutPlanner
