import Kron.Core.Schedule

/-
  The texts of errors.

  Key definitions include:
    * `Kron.KronError.toText`
-/

------------------------------------------------------------
-- Texts
------------------------------------------------------------

namespace Kron

/- `to_string` of an error. -/
def KronError.toText : KronError → String
| .invalidCron message =>
    "invalid cron expression: " ++ message
| .invalidTimezone name => "invalid timezone: " ++ name
| .timerNotFound name => "timer not found: " ++ name
| .logIo message => "log I/O error: " ++ message
| .logSerde source =>
    "log serialization error: " ++ source.message
| .corruptLog path line source =>
    "corrupt log line " ++ Nat.repr line ++ " in " ++ path ++
      ": " ++ source.message
| .alreadyStarted => "engine already started"
| .alreadyStopped => "engine has already been shut down"
| .shutdownTimeout timeoutMs =>
    "shutdown timed out after " ++ Nat.repr timeoutMs ++
      "ms"
| .dataDirLocked path =>
    "data directory is already locked: " ++ path
| .invalidSnapshot message =>
    "invalid snapshot: " ++ message
| .ipcUnavailable message =>
    "IPC unavailable: " ++ message

end Kron
