/-
# Durations

A duration is written as a number of seconds, or as a number and a unit such as `24h`. It is counted
in seconds, as a number of 64 bits.

Key definitions: `Duration.unitSeconds?`, `durationSeconds?`.
-/
import ExperimentKpi.Text.Blank
import ExperimentKpi.Text.Case
import ExperimentKpi.Text.Integer

namespace ExperimentKpi

/-- The seconds of a unit. -/
def unitSeconds? (unit : String) : Option Nat :=
  if unit ∈ ["s", "sec", "secs", "second", "seconds"] then some 1
  else if unit ∈ ["m", "min", "mins", "minute", "minutes"] then some 60
  else if unit ∈ ["h", "hr", "hour", "hours"] then some 3600
  else if unit ∈ ["d", "day", "days"] then some 86400
  else none

/-- The seconds of a written duration; the product of number and unit wraps at 64 bits. -/
def durationSeconds? (s : String) : Option Nat :=
  match Text.word? s.toList with
  | some n => some n
  | none => do
    let text := (Text.lower (String.ofList (Text.trim s.toList))).toList
    let n ← Text.word? (text.takeWhile Text.isDigit)
    let unit ← unitSeconds? (String.ofList (text.dropWhile Text.isDigit))
    return n * unit % wordSize

end ExperimentKpi
