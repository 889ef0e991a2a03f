import StoreForward.Text.Fields

/-!
# Settings of a worker

Two things can be chosen per boot: whether the clock is synchronised before
the first session, and how often in a row a session may be retried before
the worker gives up. Without a limit it retries for as long as it takes.
-/

namespace StoreForward

/-- How a worker is configured. -/
structure Settings where
  syncOnBoot : Bool := true
  retryLimit : Option UInt32 := none
  deriving DecidableEq

namespace Settings

/-- More retries in a row than the limit allows. -/
def exhausted (s : Settings) (retries : UInt32) : Bool :=
  match s.retryLimit with
  | none => false
  | some limit => decide (limit < retries)

/-- The settings in record notation, for diagnostics. -/
def text (s : Settings) : String :=
  Text.record "ConnectivityConfig"
    [("sync_time_on_boot", Text.flag s.syncOnBoot),
      ("session_retry_limit", Text.optional (s.retryLimit.map Text.count))]

end Settings

end StoreForward
