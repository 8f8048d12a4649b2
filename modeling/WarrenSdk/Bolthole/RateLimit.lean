import WarrenSdk.Bolthole.Address
import WarrenSdk.Foundation.HashMap

/-! # Rate limits

Token buckets: one for a budget of the gateway's own and one per source address
for handshakes. Tokens are counted in thousandths, so that a refill follows from
elapsed milliseconds by integer arithmetic, which saturates at 64 bits. -/

namespace WarrenSdk.Bolthole

def handshakeRatePerIp : UInt32 := 5
def handshakeBurstPerIp : UInt32 := 10
def handshakeSourcesTracked : Nat := 4096

def answerRatePerSecond : UInt32 := 1000
def answerBurst : UInt32 := 1000

def scale : Nat := 1000

def saturated (value : Nat) : Nat := min value (2 ^ 64 - 1)

/-- What a span of time buys at a rate, from its whole milliseconds. -/
def refillFor (rate : Nat) (elapsed : Duration) : Nat :=
  saturated (saturated (elapsed / 1000000) * rate)

structure TokenBucket where
  rate : Nat
  burst : Nat
  tokens : Nat
  last : Option Instant

namespace TokenBucket

def new (rate burst : UInt32) : TokenBucket where
  rate := rate.toNat
  burst := burst.toNat * scale
  tokens := burst.toNat * scale
  last := none

/-- Spend one token, or refuse. The mark only moves once the elapsed time
bought something. -/
def admits (bucket : TokenBucket) (now : Instant) : Bool × TokenBucket :=
  let last := bucket.last.getD now
  let refill := refillFor bucket.rate (now - last)
  let bucket :=
    if 0 < refill then
      { bucket with
        tokens := min (saturated (bucket.tokens + refill)) bucket.burst
        last := some now }
    else { bucket with last := some last }
  if bucket.tokens < scale then (false, bucket)
  else (true, { bucket with tokens := bucket.tokens - scale })

end TokenBucket

structure Bucket where
  tokens : Nat
  last : Instant

structure HandshakeBuckets where
  rate : Nat
  burst : Nat
  cap : Nat
  current : HashMap IpAddr Bucket
  previous : HashMap IpAddr Bucket

namespace HandshakeBuckets

def withLimits (rate burst : UInt32) (cap : Nat) : HandshakeBuckets where
  rate := rate.toNat
  burst := burst.toNat * scale
  cap := max cap 1
  current := .empty
  previous := .empty

def take (buckets : HandshakeBuckets) (source : IpAddr) (now : Instant) :
    Bucket × HandshakeBuckets :=
  match buckets.current.get source with
  | some bucket => (bucket, { buckets with current := buckets.current.remove source })
  | none =>
    ((buckets.previous.get source).getD ⟨buckets.burst, now⟩,
      { buckets with previous := buckets.previous.remove source })

/-- Spend one token of a source, or refuse. A full generation becomes the
previous one, and the previous one is forgotten whole. -/
def admits (buckets : HandshakeBuckets) (source : IpAddr) (now : Instant) :
    Bool × HandshakeBuckets :=
  let (bucket, buckets) := buckets.take source now
  let refill := refillFor buckets.rate (now - bucket.last)
  let bucket : Bucket :=
    if 0 < refill then
      { tokens := min (saturated (bucket.tokens + refill)) buckets.burst
        last := now }
    else bucket
  let admitted := decide (scale ≤ bucket.tokens)
  let bucket :=
    if admitted then { bucket with tokens := bucket.tokens - scale }
    else bucket
  let buckets :=
    if buckets.cap ≤ buckets.current.size then
      { buckets with previous := buckets.current, current := .empty }
    else buckets
  (admitted, { buckets with current := buckets.current.insert source bucket })

end HandshakeBuckets

end WarrenSdk.Bolthole
