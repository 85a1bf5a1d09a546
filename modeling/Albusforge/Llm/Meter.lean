import Mathlib.Algebra.BigOperators.Group.List.Basic
import Albusforge.Llm.Tools

/-!
# What a model call costs

`costUsd` of `packages/llm/src/pricing.ts` and `toRecord` of `packages/llm/src/meter.ts`, in exact numbers. The price
list is a parameter. **A cost has six places** (`costUsd_sixPlaces`), and so has any sum of costs.
-/

namespace Albusforge.Llm.Tools

open Lib

structure ModelPrice where
  input : ℚ
  cacheWrite5m : ℚ
  cacheWrite1h : ℚ
  cacheRead : ℚ
  output : ℚ

def costOf (counts : TokenCounts) (price : ModelPrice) : ℚ :=
  let created := counts.cacheCreationInputTokens.getD 0
  let write1h := (counts.cacheCreation.map Prod.snd).getD 0
  let write5m := (counts.cacheCreation.map Prod.fst).getD created
  (counts.inputTokens * price.input + write5m * price.cacheWrite5m + write1h * price.cacheWrite1h +
    (counts.cacheReadInputTokens.getD 0 : ℕ) * price.cacheRead + counts.outputTokens * price.output) / 1000000

/-- `Math.round(usd * 1_000_000) / 1_000_000` -/
def round6 (usd : ℚ) : ℚ := (⌊usd * 1000000 + 1 / 2⌋ : ℤ) / 1000000

def costUsd (priceFor : Text → ModelPrice) (usage : LlmUsage) (servedModel : Text) : ℚ :=
  if usage.iterations ≠ [] then
    round6 (usage.iterations.map fun entry => costOf entry.2 (priceFor entry.1)).sum
  else round6 (costOf usage.toTokenCounts (priceFor servedModel))

structure LlmCallRecord where
  stage : Text
  model : Text
  costUsd : ℚ
  inputTokens : ℕ
  outputTokens : ℕ
  cacheReadInputTokens : ℕ
  cacheCreationInputTokens : ℕ
  stopReason : StopReason
  tenantId : Text

def toRecord (priceFor : Text → ModelPrice) (stage : Text) (response : LlmResponse) (tenantId : Text) :
    LlmCallRecord where
  stage
  model := response.model
  costUsd := costUsd priceFor response.usage response.model
  inputTokens := response.usage.inputTokens
  outputTokens := response.usage.outputTokens
  cacheReadInputTokens := response.usage.cacheReadInputTokens.getD 0
  cacheCreationInputTokens := response.usage.cacheCreationInputTokens.getD 0
  stopReason := response.stopReason
  tenantId

def SixPlaces (x : ℚ) : Prop := ∃ n : ℤ, x = n / 1000000

theorem round6_sixPlaces (x : ℚ) : SixPlaces (round6 x) := ⟨_, rfl⟩

theorem round6_of_sixPlaces {x : ℚ} (h : SixPlaces x) : round6 x = x := by
  obtain ⟨n, rfl⟩ := h
  have hfloor : ⌊(n / 1000000 : ℚ) * 1000000 + 1 / 2⌋ = n := by
    rw [div_mul_cancel₀ _ (by norm_num), Int.floor_intCast_add]
    norm_num
  rw [round6, hfloor]

theorem sixPlaces_zero : SixPlaces 0 := ⟨0, by simp⟩

theorem SixPlaces.add {x y : ℚ} (hx : SixPlaces x) (hy : SixPlaces y) : SixPlaces (x + y) := by
  obtain ⟨m, rfl⟩ := hx
  obtain ⟨n, rfl⟩ := hy
  exact ⟨m + n, by push_cast; ring⟩

theorem costUsd_sixPlaces (priceFor : Text → ModelPrice) (usage : LlmUsage) (servedModel : Text) :
    SixPlaces (costUsd priceFor usage servedModel) := by
  unfold costUsd
  split <;> exact round6_sixPlaces _

end Albusforge.Llm.Tools
