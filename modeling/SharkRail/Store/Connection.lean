import SharkRail.Store.Operations

/-!
# The connection

`_transaction` on the connection that all threads share: `BEGIN IMMEDIATE`, the size query, the body in its `try`, and `COMMIT` or
`ROLLBACK`, each of which SQLite may refuse. `Store.transaction` is what this comes to where it refuses nothing
(`Connection.transaction_of_intact`).
-/

namespace SharkRail

/-- The tables of the database, and the tables as the open transaction left them so far. -/
structure Connection where
  tables : Store
  working : Option Store := none
  deriving DecidableEq

/-- Where SQLite reports an error: at the beginning, at the size query after it, at a statement of the body or of the check behind
it, or at the end. An error of a statement may have rolled the transaction back already, and an error of `COMMIT` may keep it
open. -/
inductive Failure where
  | none
  | begin
  | sizeQuery
  | statement (rolledBack : Bool)
  | commit (kept : Bool)
  deriving DecidableEq

/-- What the context manager raises. -/
inductive Raised where
  | store (e : StoreError)
  | sqlite (message : String)
  deriving DecidableEq

namespace Connection

/-- What a reader on the connection sees. -/
def visible (c : Connection) : Store := c.working.getD c.tables

/-- `BEGIN IMMEDIATE`. -/
def beginImmediate (failure : Failure) (c : Connection) : Except Raised Unit × Connection :=
  match c.working with
  | some _ => (.error (.sqlite "cannot start a transaction within a transaction"), c)
  | none =>
    if failure = .begin then (.error (.sqlite "database is locked"), c)
    else (.ok (), { c with working := some c.tables })

/-- `ROLLBACK`. -/
def rollback (c : Connection) : Except Raised Unit × Connection :=
  match c.working with
  | some _ => (.ok (), { c with working := none })
  | none => (.error (.sqlite "cannot rollback - no transaction is active"), c)

/-- `COMMIT`. -/
def commit (failure : Failure) (c : Connection) : Except Raised Unit × Connection :=
  match failure with
  | .commit true => (.error (.sqlite "database is locked"), c)
  | .commit false => (.error (.sqlite "database or disk is full"), { c with working := none })
  | _ => (.ok (), { tables := c.visible })

/-- What the `try` encloses: the body, and the check of the capacity. `left` is what the statements before an error did. -/
def guardedBody {α : Type} (cfg : StoreConfig) (body : Store → Except StoreError (α × Store)) (failure : Failure) (left : Store)
    (c : Connection) : Except Raised α × Connection :=
  match failure with
  | .statement true => (.error (.sqlite "disk I/O error"), { c with working := none })
  | .statement false => (.error (.sqlite "database is locked"), { c with working := some left })
  | _ =>
    match body c.visible with
    | .error e => (.error (.store e), { c with working := some left })
    | .ok (a, s) =>
      if s.metadataBytes > cfg.maxMetadataBytes ∧ s.metadataBytes > c.visible.metadataBytes then
        (.error (.store (.admissionLimited "metadata capacity is full")), { c with working := some s })
      else (.ok a, { c with working := some s })

/-- `_transaction` with its body. The size query after `BEGIN IMMEDIATE` stands before the `try`, and `COMMIT` behind it. -/
def transaction {α : Type} (cfg : StoreConfig) (body : Store → Except StoreError (α × Store)) (failure : Failure) (left : Store)
    (c : Connection) : Except Raised α × Connection :=
  match c.beginImmediate failure with
  | (.error e, c) => (.error e, c)
  | (.ok (), c) =>
    if failure = .sizeQuery then (.error (.sqlite "disk I/O error"), c)
    else
      match c.guardedBody cfg body failure left with
      | (.error e, c) =>
        match c.rollback with
        | (.ok (), c) => (.error e, c)
        | (.error e, c) => (.error e, c)
      | (.ok a, c) =>
        match c.commit failure with
        | (.ok (), c) => (.ok a, c)
        | (.error e, c) => (.error e, c)

end Connection

end SharkRail
