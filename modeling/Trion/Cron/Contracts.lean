import Trion.Python.DateTime
import Trion.Python.IntGrammar

/-!
# The cron server: contracts and times

The errors the cron server raises, the keyword tables of its policy for the jobs of the
agent, and the two functions on times.
-/

namespace Trion.Cron

open Trion.Python

/-- What the cron server takes from Python: the built-ins, the calendar, the decimal digits that
`int` reads, and the characters `\w` stands for in a regular expression. -/
structure CronRuntime extends PyRuntime, Calendar where
  digits : DecimalDigits
  isWordChar : Char → Bool
  /-- `str.lower` on an ASCII text. -/
  lower_ascii (s : String) :
    (∀ c ∈ s.toList, c.toNat < 128) → lower s = String.ofList (s.toList.map Char.toLower)
  parseInt_eq (s : String) : parseInt s = digits.int? s
  isWordChar_alpha (c : Char) : c.isAlpha = true → isWordChar c = true

/-- The built-ins on ASCII text, with the zone UTC. -/
def CronRuntime.ascii : CronRuntime where
  toPyRuntime := { PyRuntime.ascii with parseInt := DecimalDigits.onlyAscii.int? }
  toCalendar := .utc
  digits := .onlyAscii
  isWordChar c := c.isAlphanum || c == '_'
  lower_ascii := PyRuntime.ascii_lower
  parseInt_eq _ := rfl
  isWordChar_alpha c h := by simp [Char.isAlphanum, h]

/-- A `CronPolicyError`. -/
structure CronPolicyError where
  errorCode : String
  message : String
  statusCode : ℤ := 409
  details : PyDict := []
deriving Repr

/-- The errors of the cron server: a built-in exception, a `CronParseError` or a
`CronPolicyError`. -/
inductive CronError where
  | python (error : PyError)
  | parse (message : String)
  | policy (error : CronPolicyError)
deriving Repr

/-- `raise ValueError(message)`. -/
def valueError {α : Type} (message : String) : Except CronError α :=
  .error (.python (.valueError message))

/-! ### Keyword tables -/

def trionObjectiveAllowedHints : List String :=
  ["status", "health", "summary", "digest", "report", "sync", "cleanup", "maint", "monitor",
    "backup", "index", "archive", "memory", "recall", "plan", "review", "check"]

def trionObjectiveRiskyHints : List String :=
  ["delete", "drop", "truncate", "remove", "destroy", "wipe", "shutdown", "reboot", "restart",
    "kill", "secret", "password", "token", "api key", "credential", "docker", "network",
    "firewall", "sudo", "chmod", "chown", "rm -rf"]

/-- Risky keywords that a compatible allowed hint approves. -/
def trionRiskyContextApproved : List (String × List String) :=
  [("delete", ["cleanup", "maint", "archive", "backup", "index", "digest"]),
    ("remove", ["cleanup", "maint", "archive", "backup"]),
    ("restart", ["health", "monitor", "maint", "check", "status"]),
    ("kill", ["health", "monitor", "maint", "check", "status"]),
    ("docker", ["status", "health", "monitor", "cleanup", "backup", "maint", "check", "sync"]),
    ("network", ["status", "health", "monitor", "check", "report"]),
    ("shutdown", ["maint", "backup", "plan"]),
    ("reboot", ["maint", "health", "check", "plan"]),
    ("firewall", ["status", "health", "monitor", "check", "report"])]

def trionObjectiveHardBlockHints : List String :=
  ["rm -rf", "mkfs", "dd if=", "poweroff", ":()\x7b:|:&\x7d;:"]

/-! ### Times -/

/-- `_iso(dt)`. -/
def iso (t : DateTime) : String := t.isoformat

/-- `_parse_iso_datetime(raw)`. -/
def parseIsoDatetime (env : CronRuntime) (raw : String) : Option DateTime :=
  let txt := strip raw
  if txt = "" then none else env.fromisoformat (replaceChar 'Z' "+00:00" txt)

/-- A time that was stored is read back. -/
theorem parseIsoDatetime_iso (env : CronRuntime) (t : DateTime) :
    parseIsoDatetime env (iso t) = some t := by
  have hclean : ∀ c ∈ (iso t).toList, isSpace c = false := by
    have hseparators : ∀ c ∈ ['-', 'T', ':', '.', '+'], isSpace c = false := by
      simp [isSpace]
    intro c hc
    exact (t.isoformat_chars hc).elim isSpace_of_isDigit (hseparators c)
  have hstrip : strip (iso t) = iso t := strip_eq_self
    (fun c hc => hclean c (List.mem_of_mem_head? hc))
    (fun c hc => hclean c (List.mem_of_mem_getLast? hc))
  have hz : 'Z' ∉ (iso t).toList := fun h => by
    rcases t.isoformat_chars h with h | h
    · exact absurd h (by decide)
    · exact absurd h (by decide)
  have hne : iso t ≠ "" := fun h => by
    have hlist := congrArg String.toList h
    simp [iso, DateTime.isoformat, DateTime.isoChars, padded] at hlist
  unfold parseIsoDatetime
  simp only [hstrip, if_neg hne, replaceChar_of_notMem hz]
  exact env.fromisoformat_isoformat t

end Trion.Cron
