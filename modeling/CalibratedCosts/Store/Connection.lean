import CalibratedCosts.Store.Basic

/-! # Connections

    A connection sees the store with the changes of its own open transaction;
    everybody else sees what was committed last.

    * **Statements** take effect as a whole or not at all.
    * **Blocks**: the statements of a block belong to one transaction.  It is
      committed at the end of the block and rolled back if an error is raised
      in it.
    * **Exits**: what is raised to end the program is no error.  A block that
      it ends neither commits nor rolls back, and the transaction stays open
      until the next block.
-/

namespace CalibratedCosts.Store

variable {ε : Type}

/-- A change of the store, or why there is none. -/
abbrev Statement (ε : Type) := History → Except ε History

/-- Statements one after the other, up to the first that fails.  The changes of
    those before it are there. -/
def runAll : List (Statement ε) → History → Except ε Unit × History
  | [], s => (.ok (), s)
  | statement :: rest, s =>
    match statement s with
    | .ok s => runAll rest s
    | .error e => (.error e, s)

/-- The store as the connection sees it and as it was committed. -/
structure Connection where
  current : History
  committed : History

namespace Connection

/-- A connection without an open transaction. -/
def settled (s : History) : Connection := ⟨s, s⟩

/-- Runs a block of statements, given which of its failures are errors. -/
def block (isError : ε → Bool) (statements : List (Statement ε)) (c : Connection) :
    Except ε Unit × Connection :=
  match runAll statements c.current with
  | (.ok (), s) => (.ok (), settled s)
  | (.error e, s) =>
    if isError e then (.error e, settled c.committed) else (.error e, ⟨s, c.committed⟩)

/-- Asks a question in a block of its own, which ends a transaction that was
    open. -/
def query {α : Type} (question : History → Except ε α) (c : Connection) :
    Except ε α × Connection :=
  match question c.current with
  | .ok a => (.ok a, settled c.current)
  | .error e => (.error e, settled c.committed)

end Connection
end CalibratedCosts.Store
