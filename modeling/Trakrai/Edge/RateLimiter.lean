import Mathlib.Algebra.Group.Nat.Defs
import Trakrai.Gateway.Packets
import Trakrai.Lib.SlidingWindow

namespace Trakrai.Edge
open List Lib

structure EdgeRateLimitConfig where
  maxCommandMessages : Int
  maxMessages : Int
  windowSec : Int

structure EdgeInboundRateLimiter where
  commandTimestamps : List Int
  maxCommandMessages : Int
  maxMessages : Int
  messageTimestamps : List Int
  window : Int

section
variable (cfg : EdgeRateLimitConfig)

def normalizeEdgeRateLimitConfig : EdgeRateLimitConfig :=
  let maxMessages := if cfg.maxMessages ≤ 0 then 120 else cfg.maxMessages
  let maxCommandMessages :=
    if cfg.maxCommandMessages ≤ 0 ∨ cfg.maxCommandMessages > maxMessages then
      if 40 > maxMessages then maxMessages else 40
    else cfg.maxCommandMessages
  let windowSec := if cfg.windowSec ≤ 0 then 5 else cfg.windowSec
  ⟨maxCommandMessages, maxMessages, windowSec⟩

/-- The product of the seconds with `time.Second` is one of 64 bits. -/
def newEdgeInboundRateLimiter : EdgeInboundRateLimiter where
  commandTimestamps := []
  maxCommandMessages := (normalizeEdgeRateLimitConfig cfg).maxCommandMessages
  maxMessages := (normalizeEdgeRateLimitConfig cfg).maxMessages
  messageTimestamps := []
  window := Int.bmod ((normalizeEdgeRateLimitConfig cfg).windowSec * 1000000000) (2 ^ 64)

def pruneExpiredEdgeTimestamps (values : List Int) (cutoff : Int) : List Int :=
  let firstActiveIndex := values.findIdx fun value => !decide (value < cutoff)
  if firstActiveIndex = 0 then values
  else if values.length ≤ firstActiveIndex then []
  else values.drop firstActiveIndex

def EdgeInboundRateLimiter.allowMessage (l : EdgeInboundRateLimiter) (now : Int) :
    Bool × EdgeInboundRateLimiter :=
  let active := pruneExpiredEdgeTimestamps l.messageTimestamps (now + -l.window)
  if (active.length : Int) ≥ l.maxMessages then (false, { l with messageTimestamps := active })
  else (true, { l with messageTimestamps := active ++ [now] })

def EdgeInboundRateLimiter.allowCommand (l : EdgeInboundRateLimiter) (now : Int) :
    Bool × EdgeInboundRateLimiter :=
  let active := pruneExpiredEdgeTimestamps l.commandTimestamps (now + -l.window)
  if (active.length : Int) ≥ l.maxCommandMessages then (false, { l with commandTimestamps := active })
  else (true, { l with commandTimestamps := active ++ [now] })

theorem pruneExpiredEdgeTimestamps_eq (values : List Int) (cutoff : Int) :
    pruneExpiredEdgeTimestamps values cutoff = values.dropWhile (· < cutoff) := by
  rw [pruneExpiredEdgeTimestamps, dropWhile_eq_drop_findIdx_not]
  split
  · rename_i hzero
    rw [hzero, drop_zero]
  · split
    · rename_i hall
      rw [drop_of_length_le hall]
    · rfl

theorem newEdgeInboundRateLimiter_limits :
    0 < (newEdgeInboundRateLimiter cfg).maxCommandMessages ∧
      (newEdgeInboundRateLimiter cfg).maxCommandMessages ≤ (newEdgeInboundRateLimiter cfg).maxMessages := by
  simp only [newEdgeInboundRateLimiter, normalizeEdgeRateLimitConfig]
  split <;> split <;> (try split) <;> omega

end

inductive Traffic
  | message
  | command
deriving DecidableEq

def serveEdge (l : EdgeInboundRateLimiter) : Traffic × Int → Bool × EdgeInboundRateLimiter
  | (.message, now) => l.allowMessage now
  | (.command, now) => l.allowCommand now

def serveGateway (rateLimit : Gateway.GatewayWebSocketRateLimit) (limiter : Gateway.Limiter) :
    Traffic × Int → Bool × Gateway.Limiter
  | (.message, now) =>
    ((Gateway.recordInboundMessage limiter now rateLimit).2.isNone,
      (Gateway.recordInboundMessage limiter now rateLimit).1)
  | (.command, now) =>
    ((Gateway.recordInboundCommand limiter now rateLimit).2.isNone,
      (Gateway.recordInboundCommand limiter now rateLimit).1)

def maximum (maxCommandMessages maxMessages : Nat) : Traffic → Nat
  | .message => maxMessages
  | .command => maxCommandMessages

def EdgeInboundRateLimiter.kept (l : EdgeInboundRateLimiter) : Traffic → List Int
  | .message => l.messageTimestamps
  | .command => l.commandTimestamps

def gatewayKept (limiter : Gateway.Limiter) : Traffic → List Int
  | .message => limiter.messageTimestamps
  | .command => limiter.commandTimestamps

section
variable {maxCommandMessages maxMessages : Nat} {window : Int}

def EdgeInboundRateLimiter.HasLimits (maxCommandMessages maxMessages : Nat) (window : Int)
    (l : EdgeInboundRateLimiter) : Prop :=
  l.maxCommandMessages = maxCommandMessages ∧ l.maxMessages = maxMessages ∧ l.window = window

theorem full_or_room (count limit : Nat) (full room : State) :
    (if (count : Int) ≥ limit then (false, full) else (true, room)) =
      (decide (count < limit), if count < limit then room else full) := by
  by_cases h : count < limit
  · rw [if_neg (by omega), if_pos h, decide_eq_true h]
  · rw [if_pos (by omega), if_neg h, decide_eq_false h]

theorem serveEdge_eq
    (hl : l.HasLimits maxCommandMessages maxMessages window) (kind : Traffic) (now : Int) :
    (serveEdge l (kind, now)).1 = decide (((l.kept kind).dropWhile (· < now - window)).length <
        maximum maxCommandMessages maxMessages kind) ∧
      (serveEdge l (kind, now)).2.HasLimits maxCommandMessages maxMessages window ∧
      ∀ kind', (serveEdge l (kind, now)).2.kept kind' = if kind' = kind then
          (l.kept kind).dropWhile (· < now - window) ++
            if (serveEdge l (kind, now)).1 then [now] else []
        else l.kept kind' := by
  have hcut : now + -l.window = now - window := by rw [hl.2.2, Int.sub_eq_add_neg]
  cases kind with
  | message =>
    simp only [serveEdge, EdgeInboundRateLimiter.allowMessage, pruneExpiredEdgeTimestamps_eq, hcut,
      hl.2.1, full_or_room]
    refine ⟨rfl, ?_, fun kind' => ?_⟩
    · split <;> exact ⟨hl.1, rfl, hl.2.2⟩
    · cases kind' <;> split <;> simp_all [EdgeInboundRateLimiter.kept]
  | command =>
    simp only [serveEdge, EdgeInboundRateLimiter.allowCommand, pruneExpiredEdgeTimestamps_eq, hcut,
      hl.1, full_or_room]
    refine ⟨rfl, ?_, fun kind' => ?_⟩
    · split <;> exact ⟨rfl, hl.2⟩
    · cases kind' <;> split <;> simp_all [EdgeInboundRateLimiter.kept]

theorem serveGateway_eq (rateLimit : Gateway.GatewayWebSocketRateLimit) (limiter : Gateway.Limiter)
    (kind : Traffic) (now : Int) :
    (serveGateway rateLimit limiter (kind, now)).1 =
      decide (((gatewayKept limiter kind).dropWhile (· < now - rateLimit.windowMs)).length <
        maximum rateLimit.maxCommandMessages rateLimit.maxMessages kind) ∧
      ∀ kind', gatewayKept (serveGateway rateLimit limiter (kind, now)).2 kind' =
        if kind' = kind then
          (gatewayKept limiter kind).dropWhile (· < now - rateLimit.windowMs) ++
            if (serveGateway rateLimit limiter (kind, now)).1 then [now] else []
        else gatewayKept limiter kind' := by
  cases kind with
  | message =>
    rw [serveGateway, Gateway.recordInboundMessage, Gateway.pruneExpiredTimestamps, gatewayKept, maximum]
    split
    · rename_i hfull
      rw [decide_eq_false (Nat.not_lt.mpr hfull)]
      exact ⟨rfl, fun kind' => by cases kind' <;> simp [gatewayKept]⟩
    · rename_i hroom
      rw [decide_eq_true (Nat.lt_of_not_le hroom)]
      exact ⟨rfl, fun kind' => by cases kind' <;> simp [gatewayKept]⟩
  | command =>
    rw [serveGateway, Gateway.recordInboundCommand, Gateway.pruneExpiredTimestamps, gatewayKept, maximum]
    split
    · rename_i hfull
      rw [decide_eq_false (Nat.not_lt.mpr hfull)]
      exact ⟨rfl, fun kind' => by cases kind' <;> simp [gatewayKept]⟩
    · rename_i hroom
      rw [decide_eq_true (Nat.lt_of_not_le hroom)]
      exact ⟨rfl, fun kind' => by cases kind' <;> simp [gatewayKept]⟩

theorem serveEdge_prunes : Prunes (maximum maxCommandMessages maxMessages) window serveEdge
    EdgeInboundRateLimiter.kept
    (EdgeInboundRateLimiter.HasLimits maxCommandMessages maxMessages window) where
  answer _ hl kind now := (serveEdge_eq hl kind now).1
  same l hl kind now := by rw [(serveEdge_eq hl kind now).2.2, if_pos rfl]
  other l hl kind now kind' hne := by rw [(serveEdge_eq hl kind now).2.2, if_neg hne]
  fits _ hl arrival := (serveEdge_eq hl arrival.1 arrival.2).2.1

theorem serveGateway_prunes (rateLimit : Gateway.GatewayWebSocketRateLimit) :
    Prunes (maximum rateLimit.maxCommandMessages rateLimit.maxMessages) rateLimit.windowMs
      (serveGateway rateLimit) gatewayKept fun _ => True where
  answer limiter _ kind now := (serveGateway_eq rateLimit limiter kind now).1
  same limiter _ kind now := by rw [(serveGateway_eq rateLimit limiter kind now).2, if_pos rfl]
  other limiter _ kind now kind' hne := by
    rw [(serveGateway_eq rateLimit limiter kind now).2, if_neg hne]
  fits _ _ _ := trivial

end

/-- Whatever arrives, in the order of the times, both limiters slide and let the same through, in
whatever units their times and windows are. -/
theorem limiters_slide_alike (maxCommandMessages maxMessages : Nat) (window : Int)
    (arrivals : List (Traffic × Int)) (hsorted : (arrivals.map Prod.snd).Pairwise (· ≤ ·)) :
    let edge := served serveEdge ⟨[], maxCommandMessages, maxMessages, [], window⟩ arrivals
    let gateway := served (serveGateway ⟨maxCommandMessages, maxMessages, window⟩) Gateway.Limiter.empty
      arrivals
    Slides (maximum maxCommandMessages maxMessages) window edge ∧
      Slides (maximum maxCommandMessages maxMessages) window gateway ∧
      edge = gateway ∧
      ∀ unit, 0 < unit → (served serveEdge ⟨[], maxCommandMessages, maxMessages, [], unit * window⟩
          (arrivals.map (inUnit unit))).map Prod.snd = gateway.map Prod.snd := by
  have hkept : ∀ kind, gatewayKept Gateway.Limiter.empty kind = [] := by rintro (_ | _) <;> rfl
  have hedgeKept (window : Int) : ∀ kind, EdgeInboundRateLimiter.kept
      ⟨[], maxCommandMessages, maxMessages, [], window⟩ kind = [] := by rintro (_ | _) <;> rfl
  intro edge gateway
  obtain ⟨hgateway, hgatewaySlides⟩ :=
    (serveGateway_prunes ⟨maxCommandMessages, maxMessages, window⟩).slides trivial hkept hsorted
  obtain ⟨hedge, hedgeSlides⟩ := serveEdge_prunes.slides ⟨rfl, rfl, rfl⟩ (hedgeKept window) hsorted
  refine ⟨hedgeSlides, hgatewaySlides, hedge.trans hgateway.symm, fun unit hunit => ?_⟩
  have hsorted' : ((arrivals.map (inUnit unit)).map Prod.snd).Pairwise (· ≤ ·) := by
    have he : (arrivals.map (inUnit unit)).map Prod.snd = (arrivals.map Prod.snd).map (unit * ·) := by
      simp only [map_map]
      rfl
    rw [he, pairwise_map]
    exact hsorted.imp fun hle => Int.mul_le_mul_of_nonneg_left hle hunit.le
  obtain ⟨hscaled, -⟩ := serveEdge_prunes.slides ⟨rfl, rfl, rfl⟩ (hedgeKept (unit * window)) hsorted'
  have hunits : remembered (maximum maxCommandMessages maxMessages) (unit * window) []
      (arrivals.map (inUnit unit)) =
      (remembered (maximum maxCommandMessages maxMessages) window [] arrivals).map
        (Prod.map (inUnit unit) id) := remembered_inUnit hunit []
  calc
    _ = ((remembered (maximum maxCommandMessages maxMessages) window [] arrivals).map
        (Prod.map (inUnit unit) id)).map Prod.snd := by rw [hscaled, ← hunits]
    _ = gateway.map Prod.snd := by
      rw [map_map, ← hgateway]
      rfl

def burst : List (Traffic × Int) :=
  [(.message, 0), (.command, 0), (.message, 3), (.command, 3), (.message, 5), (.message, 6)]

theorem limiters_slide_alike_burst :
    Slides (maximum 1 2) 5 (served serveEdge ⟨[], 1, 2, [], 5⟩ burst) ∧
      (served serveEdge ⟨[], 1, 2, [], 5⟩ burst).map Prod.snd = [true, true, true, false, false, true] :=
  ⟨(limiters_slide_alike 1 2 5 burst (by decide)).1, by decide +kernel⟩

end Trakrai.Edge
