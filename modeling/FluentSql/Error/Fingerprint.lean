import FluentSql.Error.Basic
import FluentSql.Text.Search

namespace FluentSql.Error

/-- Phrases that mean the server is gone: MySQL, Postgres, SQL Server, then the network. -/
def lostConnectionPhrases : List String := [
  "server has gone away",
  "Lost connection",
  "Error while sending",
  "Error writing data to the connection",
  "Packets out of order. Expected",
  "running with the --read-only option so it cannot execute this statement",
  "The last transaction was aborted due to Seamless Scaling. Please retry.",
  "[2002] Connection refused",
  "[2002] No such file or directory",
  "no connection to the server",
  "server closed the connection unexpectedly",
  "SSL connection has been closed unexpectedly",
  "decryption failed or bad record mac",
  "child connection forced to terminate due to client_idle_limit",
  "query_wait_timeout",
  "could not connect to server: Connection refused",
  "could not translate host name",
  "SSL SYSCALL error: EOF detected",
  "connection is no longer usable",
  "is dead or not enabled",
  "Physical connection is not usable",
  "TCP Provider: Error code 0x68",
  "TCP Provider: Error code 0x274C",
  "Adaptive Server connection failed",
  "Communication link failure",
  "Login timeout expired",
  "The connection is broken and recovery is not possible",
  "Server is in script upgrade mode",
  "reset by peer",
  "Broken pipe",
  "Connection timed out",
  "Operation timed out",
  "Handshake timed out",
  "Temporary failure in name resolution",
  "getaddrinfo failed",
  "Resource deadlock avoided"]

/-- Phrases that mean another transaction won: MySQL, Postgres, SQLite, then SQL Server. -/
def concurrencyPhrases : List String := [
  "Deadlock found when trying to get lock",
  "Lock wait timeout exceeded; try restarting transaction",
  "WSREP detected deadlock/conflict and aborted the transaction",
  "deadlock detected",
  "could not serialize access",
  "The database file is locked",
  "database is locked",
  "database table is locked",
  "A table in the database is locked",
  "has been chosen as the deadlock victim"]

def serializationFailure : String := "40001"

def mentions (phrases : List String) (text : String) : Bool :=
  phrases.any fun phrase ↦ Text.contains phrase.toList text.toList

def losesConnection : Error → Bool
  | database (.io _) => true
  | database .poolClosed => true
  | database .poolTimedOut => true
  | database .workerCrashed => true
  | e => mentions lostConnectionPhrases e.message

def losesRace : Error → Bool
  | database (.reported code text) =>
    code == some serializationFailure ||
      mentions concurrencyPhrases (database (.reported code text)).message
  | e => mentions concurrencyPhrases e.message

def causedByLostConnection (e : Error) : Bool :=
  e.root.losesConnection

def causedByConcurrency (e : Error) : Bool :=
  e.isDeadlock || e.root.losesRace

/-- Attaches the failed statement. A lost connection takes precedence over a lost race. -/
def classify (e : Error) (sql : String) (bindings : List Value) : Error :=
  if e.causedByLostConnection then connectionLost sql bindings e
  else if e.causedByConcurrency then deadlock sql bindings e
  else execution sql bindings e

@[simp] theorem root_classify (e : Error) (sql : String) (bindings : List Value) :
    (e.classify sql bindings).root = e.root := by
  unfold classify
  split
  · rfl
  · split <;> rfl

@[simp] theorem sql?_classify (e : Error) (sql : String) (bindings : List Value) :
    (e.classify sql bindings).sql? = some sql := by
  unfold classify
  split
  · rfl
  · split <;> rfl

@[simp] theorem bindings?_classify (e : Error) (sql : String) (bindings : List Value) :
    (e.classify sql bindings).bindings? = some bindings := by
  unfold classify
  split
  · rfl
  · split <;> rfl

end FluentSql.Error
