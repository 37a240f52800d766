import DeviceLink.Json.Shape
import DeviceLink.Text.Numeral

/-! Settings: their defaults, and the environment variables that override them. -/
namespace DeviceLink

/-- How often and how fast a request is sent again. -/
structure RetryConfig where
  /-- Repetitions after the first sending. -/
  maxRetries : UInt32
  /-- Milliseconds between two sendings. -/
  interval : UInt64
  deriving DecidableEq, Repr

namespace RetryConfig

def default : RetryConfig := ⟨3, 5000⟩

end RetryConfig

/-- A span of time, to the nanosecond. -/
structure Duration where
  seconds : UInt64
  nanoseconds : Fin 1000000000
  deriving DecidableEq, Repr

namespace Duration

/-- The whole milliseconds of a span; what is left over does not count. -/
def millis (d : Duration) : Nat := d.seconds.toNat * 1000 + d.nanoseconds.val / 1000000

def ofMillis (n : UInt64) : Duration :=
  ⟨n / 1000, ⟨n.toNat % 1000 * 1000000, by omega⟩⟩

/-- The milliseconds of a span as far as 64 bits can hold them. -/
def millis64 (d : Duration) : UInt64 :=
  if d.millis < limit64 then UInt64.ofNat d.millis else UInt64.ofNat (limit64 - 1)

/-- The stored form of a span, in milliseconds. -/
def stored : Json.Shape Duration := .refine .uint64 (fun n => .ok (ofMillis n)) millis64

end Duration

/-- A configuration whose interval is a span of any length. -/
structure RetryPolicy where
  maxRetries : UInt32
  interval : Duration
  deriving DecidableEq, Repr

/-- The stored form of a policy; what is missing has its default. -/
def RetryPolicy.stored : Json.Shape RetryPolicy :=
  .refine
    (.record (.defaulted "max_retries" .uint32 (.defaulted "retry_interval" Duration.stored .nil)))
    (fun (retries, interval, ()) =>
      .ok ⟨retries.getD RetryConfig.default.maxRetries,
        interval.getD (.ofMillis RetryConfig.default.interval)⟩)
    fun p => (some p.maxRetries, some p.interval, ())

namespace RetryConfig

def ofPolicy (p : RetryPolicy) : RetryConfig := ⟨p.maxRetries, p.interval.millis64⟩

def policy (c : RetryConfig) : RetryPolicy := ⟨c.maxRetries, .ofMillis c.interval⟩

/-- The stored form of a configuration: that of its policy. -/
def stored : Json.Shape RetryConfig :=
  .refine RetryPolicy.stored (fun p => .ok (ofPolicy p)) policy

end RetryConfig

/-- The values of environment variables that are set. -/
abbrev Environment := List (String × String)

namespace Settings

def natural? (env : Environment) (limit : Nat) (name : String) : Option Nat :=
  (env.lookup name).bind fun text => Text.natural? limit text.toList

def retry (env : Environment) : RetryConfig where
  maxRetries := ((natural? env limit32 "WOLK_RETRY_COUNT").map UInt32.ofNat).getD
    RetryConfig.default.maxRetries
  interval := ((natural? env limit64 "WOLK_RETRY_INTERVAL_MS").map UInt64.ofNat).getD
    RetryConfig.default.interval

/-- The octets that stored messages may take; zero means no limit. -/
def storageLimit (env : Environment) : Nat :=
  (natural? env limit64 "WOLK_STORAGE_LIMIT_BYTES").getD 0

/-- Whether logs are written as JSON lines: any word but these switches them on. -/
def logJson (env : Environment) : Bool :=
  match env.lookup "WOLK_LOG_JSON" with
  | none => false
  | some word => word ≠ "" && word ≠ "0" && word ≠ "false"

end Settings
end DeviceLink
