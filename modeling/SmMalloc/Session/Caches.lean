import SmMalloc.Session.Run

namespace SmMalloc

open Foundation

/-!
# Who has a cache

Only `CreateThreadCache` gives a thread a cache.  All other calls, its own and
those of other threads, may change what is in its cache buckets, but not what
they are attached to.  So a thread that has destroyed its cache since it last
created one has none.
-/

variable {scheme : Partitioning} {pool : Pool scheme} {m m' : Machine} {s first : Session}
variable {a p q r t u : Nat} {bytesCount alignment : Nat} {rest out : List Nat}
variable {_bucketsCount _bucketSizeInBytes : Nat}

/-- A reallocation keeps all cache buckets attached. -/
theorem Reallocated.kept (reallocated : Reallocated pool a t p bytesCount alignment out m r m')
    (u j : Nat) : (m.tls u j).Kept (m'.tls u j) := by
  cases reallocated with
  | inPlace => exact TlsPoolBucket.Kept.refl _
  | refused allocated => exact allocated.confined.1.kept allocated.slots u j
  | lost elsewhere allocated => exact allocated.confined.1.kept allocated.slots u j
  | fromPool i o bound block address short allocated served released =>
      exact (allocated.confined.1.kept allocated.slots u j).trans
        (released.confined.kept released.slots u j)
  | fromHeap elsewhere allocated served => exact allocated.confined.1.kept allocated.slots u j

def Op.Creates (u : Nat) : Op -> Prop
  | .createThreadCache t _ _ => t = u
  | _ => False

def Op.Destroys (u : Nat) : Op -> Prop
  | .destroyThreadCache t => t = u
  | _ => False

namespace Session

/-- Whenever thread `u` creates a cache, it destroys it later on. -/
def DestroysCache (u : Nat) : List Op -> Prop := Transition.Closed (Op.Creates u) (Op.Destroys u)

namespace Sound

theorem alloc_kept (sound : s.Sound pool a rest) (valid : ValidAlignment alignment) (u j : Nat) :
    (s.world.tls u j).Kept
      ((Allocator.alloc scheme s.world a t bytesCount alignment).2.tls u j) := by
  by_cases empty : bytesCount = 0
  · subst empty
    rw [alloc_empty valid]
    exact TlsPoolBucket.Kept.refl _
  · have allocated := SmMalloc.Sound.request sound t valid empty
    exact allocated.confined.1.kept allocated.slots u j

theorem free_kept (sound : s.Sound pool a rest) (returnable : s.Returnable p) (u j : Nat) :
    (s.world.tls u j).Kept ((Allocator.free s.world a t p).tls u j) := by
  rcases returnable with small | member
  · rw [free_empty small]
    exact TlsPoolBucket.Kept.refl _
  · have freed := (sound.returned member).free t
    exact freed.2.1.kept freed.2.2.1 u j

theorem realloc_kept (sound : s.Sound pool a rest) (returnable : s.Returnable p)
    (bytesBound : bytesCount < 2 ^ 64) (valid : ValidAlignment alignment) (u j : Nat) :
    (s.world.tls u j).Kept
      ((Allocator.realloc scheme s.world a t p bytesCount alignment).2.tls u j) := by
  by_cases small : p ≤ kMaxValidAlignment
  · rw [realloc_empty small]
    exact sound.alloc_kept valid u j
  by_cases empty : bytesCount = 0
  · rw [empty, realloc_zero (Nat.lt_of_not_le small)]
    exact sound.free_kept returnable u j
  · have returned := sound.returned (returnable.resolve_left small)
    exact (returned.relocation t valid empty bytesBound).kept u j

/-- A step that is not the thread's `CreateThreadCache` gives it no cache. -/
theorem step_cacheless {op : Op} (sound : s.Sound pool a rest) (allowed : Allowed scheme a s op)
    (other : ¬ op.Creates u) (cacheless : s.Cacheless u) :
    (Session.step scheme a s op).Cacheless u := by
  intro j
  cases op with
  | alloc t bytesCount alignment =>
      exact (sound.alloc_kept (t := t) allowed.2 u j).pBucket.trans (cacheless j)
  | free t p => exact (sound.free_kept (t := t) allowed u j).pBucket.trans (cacheless j)
  | realloc t p bytesCount alignment =>
      rw [realloc_world]
      exact (sound.realloc_kept allowed.1 allowed.2.1 allowed.2.2 u j).pBucket.trans (cacheless j)
  | createThreadCache t warmupOptions options =>
      have same := (sound.created allowed).confined.threads u (fun same => other same.symm)
      exact (congrArg TlsPoolBucket.pBucket (congrFun same j)).trans (cacheless j)
  | destroyThreadCache t =>
      have destroyed := SmMalloc.Sound.destroyThreadCache sound t
      by_cases same : u = t
      · subst same
        exact (destroyed.idle j).pBucket
      · have same' := congrFun (destroyed.confined.threads u same) j
        exact (congrArg TlsPoolBucket.pBucket same').trans (cacheless j)
  | write p k v => exact cacheless j

/-- After the thread's `DestroyThreadCache` it has none. -/
theorem destroyed_cacheless {op : Op} (sound : s.Sound pool a rest) (destroys : op.Destroys u) :
    (Session.step scheme a s op).Cacheless u := by
  intro j
  cases op with
  | destroyThreadCache t =>
      cases destroys
      exact ((SmMalloc.Sound.destroyThreadCache sound u).idle j).pBucket
  | alloc => cases destroys
  | free => cases destroys
  | realloc => cases destroys
  | createThreadCache => cases destroys
  | write => cases destroys

/-- A thread that always destroys its cache has none in the end. -/
theorem run_cacheless {ops : List Op} (sound : s.Sound pool a rest) (cacheless : s.Cacheless u)
    (permitted : (system scheme a _bucketsCount _bucketSizeInBytes).Permitted s ops)
    (destroys : DestroysCache u ops) :
    ((system scheme a _bucketsCount _bucketSizeInBytes).run s ops).Cacheless u :=
  Transition.run_closed (fun s => s.Sound pool a rest) (fun s => s.Cacheless u)
    (fun _ _ => step) (fun _ _ => step_cacheless) (fun _ _ sound _ => sound.destroyed_cacheless)
    sound cacheless permitted destroys

end Sound

/-- At the start the session is sound, and no thread has a cache. -/
theorem Start.sound (start : Start scheme a _bucketsCount _bucketSizeInBytes first)
    (wellFormed : WellFormed scheme _bucketsCount _bucketSizeInBytes) (sized : scheme.Sized) :
    (∃ (pool : Pool scheme) (rest : List Nat), first.Sound pool a rest) ∧
      forall u, first.Cacheless u := by
  rcases start with ⟨w, fresh, -, served, rfl⟩
  rcases wellFormed.sound sized fresh served with ⟨pool, -, sound⟩
  refine ⟨⟨pool, _, sound⟩, fun u j => ?_⟩
  have unused : (w.allocs a).bucketsCount = 0 := by rw [fresh.constructed]; rfl
  change ((Allocator.init scheme w a _bucketsCount _bucketSizeInBytes).tls u j).pBucket = none
  rw [(init_spec scheme wellFormed.arguments unused).tls]
  exact (fresh.tls u j).pBucket

end Session

end SmMalloc
