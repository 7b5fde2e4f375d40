/-
# The host

What the program does is settled by its rules, apart from two things that are settled by the host
it runs on.  One is how much the stack holds: it bounds how many calls may be open at once while a
text is read, and how deep the nodes of a tree may lie when its source text is written.  The other
is a habit of the library that reads command lines: some editions of it drop a value that consists
of two dashes.

Of the stack no more is known than what every host grants: calls that are nested two hundred deep
are read and written, and a thousand calls are never open at once.
-/
namespace Varscript

/-- What the host settles. -/
class Host where
  /-- How many calls may be open at once while a text is read. -/
  openCalls : Nat
  /-- How many levels of the stack there are for writing a tree; each node takes one. -/
  stackLevels : Nat
  /-- How many further levels it takes to go through a list of nodes. -/
  listLevels : Nat
  /-- Whether a value of two dashes on a command line is dropped. -/
  dropsDashes : Bool
  le_openCalls : 200 ≤ openCalls
  openCalls_lt : openCalls < 1000
  /-- A program, a statement, two hundred calls, each an argument of the one before, and an argument
  of the innermost one. -/
  le_stackLevels : (listLevels + 1) * 201 + 2 ≤ stackLevels

/-- A host that reads calls nested almost five hundred deep and writes a third less. -/
@[reducible] def Host.usual : Host where
  openCalls := 496
  stackLevels := 997
  listLevels := 2
  dropsDashes := true
  le_openCalls := by decide
  openCalls_lt := by decide
  le_stackLevels := by decide

end Varscript
