import SmMalloc.Foundation.Transition
import SmMalloc.Pool.Extent
import SmMalloc.Pool.Attach
import SmMalloc.Pool.Start

namespace SmMalloc

open Foundation

/-!
# Sessions: threads that use one allocator

A session is a world together with the addresses that its clients hold.  Any
thread may take any step at any time; each operation is one step.  The guards
are what the interface asks of its callers: sizes are of type `size_t`,
alignments are powers of two up to a page, only held blocks are released, a
thread creates a cache only when it has none, and clients write only to the
usable bytes of blocks they hold.  The stacks of a cache are served, and the
number of their slots, which is the option and `maxCacheItemsCount`, does not
wrap around.

The clients hold a block from the call that returns it until it has been given
back, whichever call does so.
-/

/-- What threads and clients do. -/
inductive Op
  | alloc (t bytesCount alignment : Nat)
  | free (t p : Nat)
  | realloc (t p bytesCount alignment : Nat)
  | createThreadCache (t : Nat) (warmupOptions : CacheWarmupOptions) (options : List Nat)
  | destroyThreadCache (t : Nat)
  | write (p k : Nat) (v : UInt8)

structure Session where
  world : World
  held : List Nat

namespace Session

variable (scheme : Partitioning) (a : Nat)

/-- The block at `p` has not been given back. -/
def stillThere (w : World) (p : Nat) : Bool :=
  decide ((w.allocs a).findBucket p < (w.allocs a).bucketsCount) ||
    decide (p ∈ w.heap.live.map Region.base)

/-- The result of an allocation is held, unless it is null or stands for an empty block. -/
def grant (held : List Nat) (bytesCount p : Nat) : List Nat :=
  if bytesCount = 0 ∨ p = 0 then held else p :: held

def step (s : Session) : Op -> Session
  | .alloc t bytesCount alignment =>
      let r := Allocator.alloc scheme s.world a t bytesCount alignment
      ⟨r.2, grant s.held bytesCount r.1⟩
  | .free t p => ⟨Allocator.free s.world a t p, s.held.erase p⟩
  | .realloc t p bytesCount alignment =>
      let r := Allocator.realloc scheme s.world a t p bytesCount alignment
      if Allocator.isReadable p = false then ⟨r.2, grant s.held bytesCount r.1⟩
      else if bytesCount = 0 then ⟨r.2, s.held.erase p⟩
      else if r.1 ≠ 0 then ⟨r.2, r.1 :: s.held.erase p⟩
      else ⟨r.2, if stillThere a r.2 p then s.held else s.held.erase p⟩
  | .createThreadCache t warmupOptions options =>
      ⟨Allocator.createThreadCache scheme s.world a t warmupOptions options, s.held⟩
  | .destroyThreadCache t => ⟨Allocator.destroyThreadCache s.world t, s.held⟩
  | .write p k v => ⟨{ s.world with mem := s.world.mem.poke (p + k) v }, s.held⟩

/-- A pointer that a client may hand back: one that stands for an empty block,
null included, or one that is held. -/
def Returnable (s : Session) (p : Nat) : Prop := p ≤ kMaxValidAlignment ∨ p ∈ s.held

/-- Thread `t` has no cache. -/
def Cacheless (s : Session) (t : Nat) : Prop := forall i, (s.world.tls t i).pBucket = none

def Allowed (s : Session) : Op -> Prop
  | .alloc _ bytesCount alignment => bytesCount < 2 ^ 64 ∧ ValidAlignment alignment
  | .free _ p => s.Returnable p
  | .realloc _ p bytesCount alignment =>
      s.Returnable p ∧ bytesCount < 2 ^ 64 ∧ ValidAlignment alignment
  | .createThreadCache t warmupOptions options =>
      s.Cacheless t ∧ options.length ≤ (s.world.allocs a).bucketsCount ∧
        (forall v, v ∈ options -> 2 ≤ v ∧ v + maxCacheItemsCount < 2 ^ 32) ∧
        s.world.stacksServed scheme a t warmupOptions 0 options = true
  | .destroyThreadCache _ => True
  | .write p k _ => p ∈ s.held ∧ k < Allocator.getUsableSize scheme s.world a p

/-- A session starts with `Init` on a fresh world, the buffer being served. -/
def Start (_bucketsCount _bucketSizeInBytes : Nat) (s : Session) : Prop :=
  ∃ w, Fresh a w ∧ w.failed = [] ∧
    w.heap.answer (bufferBytes _bucketsCount _bucketSizeInBytes) kMaxValidAlignment ≠ 0 ∧
    s = ⟨Allocator.init scheme w a _bucketsCount _bucketSizeInBytes, []⟩

/-- All sessions of one configuration. -/
def system (_bucketsCount _bucketSizeInBytes : Nat) : Transition Session Op where
  start := Start scheme a _bucketsCount _bucketSizeInBytes
  allowed := Allowed scheme a
  next := step scheme a

end Session

/-! ## Every session is sound -/

variable {scheme : Partitioning} {pool : Pool scheme} {a : Nat} {rest : List Nat} {s : Session}
variable {_bucketsCount _bucketSizeInBytes : Nat}

/-- The machine of the session is sound, with exactly the held addresses outside. -/
def Session.Sound (pool : Pool scheme) (a : Nat) (rest : List Nat) (s : Session) : Prop :=
  SmMalloc.Sound pool a rest s.world.toMachine s.held

namespace Session.Sound

theorem returned {p : Nat} (sound : s.Sound pool a rest) (member : p ∈ s.held) :
    SmMalloc.Sound pool a rest s.world.toMachine (p :: s.held.erase p) :=
  SmMalloc.Sound.perm sound (List.perm_cons_erase member).symm

theorem readable {p : Nat} (sound : s.Sound pool a rest) (member : p ∈ s.held) :
    kMaxValidAlignment < p ∧ p < 2 ^ 64 := sound.addresses p member

theorem erase_empty {p : Nat} (sound : s.Sound pool a rest) (small : p ≤ kMaxValidAlignment) :
    s.held.erase p = s.held := by
  apply List.erase_of_not_mem
  intro member
  have address := sound.readable member
  omega

theorem alloc_empty {w : World} {t alignment : Nat} (valid : ValidAlignment alignment) :
    Allocator.alloc scheme w a t 0 alignment = (alignment, w) := by
  have alignmentFine : decide (alignment ≤ kMaxValidAlignment) = true :=
    decide_eq_true valid.le_max
  simp only [Allocator.alloc, Allocator.allocate, World.check_true w alignmentFine, if_true]

theorem alloc {t bytesCount alignment : Nat} (sound : s.Sound pool a rest)
    (valid : ValidAlignment alignment) :
    SmMalloc.Sound pool a rest
      (Allocator.alloc scheme s.world a t bytesCount alignment).2.toMachine
      (grant s.held bytesCount (Allocator.alloc scheme s.world a t bytesCount alignment).1) := by
  by_cases empty : bytesCount = 0
  · subst empty
    rw [alloc_empty valid]
    exact sound
  · have allocated := SmMalloc.Sound.request sound t valid empty
    by_cases refused : (Allocator.alloc scheme s.world a t bytesCount alignment).1 = 0
    · have granted : grant s.held bytesCount
          (Allocator.alloc scheme s.world a t bytesCount alignment).1 = s.held :=
        if_pos (Or.inr refused)
      rw [granted]
      rw [refused] at allocated
      exact SmMalloc.Sound.refused sound (by omega) allocated
    · have granted : grant s.held bytesCount
          (Allocator.alloc scheme s.world a t bytesCount alignment).1 =
          (Allocator.alloc scheme s.world a t bytesCount alignment).1 :: s.held :=
        if_neg (not_or.mpr ⟨empty, refused⟩)
      rw [granted]
      exact SmMalloc.Sound.allocated sound (by omega) allocated refused

theorem free {t p : Nat} (sound : s.Sound pool a rest) (returnable : s.Returnable p) :
    SmMalloc.Sound pool a rest (Allocator.free s.world a t p).toMachine (s.held.erase p) := by
  rcases returnable with small | member
  · rw [free_empty small, sound.erase_empty small]
    exact sound
  · exact ((sound.returned member).free t).1

theorem stillThere_iff {w : World} {p : Nat} (represents : pool.Represents (w.allocs a)) :
    stillThere a w p = true <-> pool.StillThere w.toMachine p := by
  rw [stillThere, Bool.or_eq_true, decide_eq_true_iff, decide_eq_true_iff, represents.findBucket,
    represents.bucketsCount]
  rfl

/-- What a reallocation leaves with the clients. -/
theorem step_realloc {t p bytesCount alignment : Nat} {r : Nat × World}
    (isResult : r = Allocator.realloc scheme s.world a t p bytesCount alignment) :
    Session.step scheme a s (.realloc t p bytesCount alignment) =
      if Allocator.isReadable p = false then ⟨r.2, grant s.held bytesCount r.1⟩
      else if bytesCount = 0 then ⟨r.2, s.held.erase p⟩
      else if r.1 ≠ 0 then ⟨r.2, r.1 :: s.held.erase p⟩
      else ⟨r.2, if stillThere a r.2 p then s.held else s.held.erase p⟩ := by
  rw [isResult]
  rfl

theorem realloc_world {t q bytesCount alignment : Nat} :
    (Session.step scheme a s (.realloc t q bytesCount alignment)).world =
      (Allocator.realloc scheme s.world a t q bytesCount alignment).2 := by
  simp only [Session.step]
  split
  · rfl
  split
  · rfl
  split
  · rfl
  · rfl

theorem realloc {t p bytesCount alignment : Nat} (sound : s.Sound pool a rest)
    (returnable : s.Returnable p) (bytesBound : bytesCount < 2 ^ 64)
    (valid : ValidAlignment alignment) :
    (Session.step scheme a s (.realloc t p bytesCount alignment)).Sound pool a rest := by
  obtain ⟨r, isResult⟩ : ∃ r, r = Allocator.realloc scheme s.world a t p bytesCount alignment :=
    ⟨_, rfl⟩
  rw [step_realloc isResult]
  by_cases small : p ≤ kMaxValidAlignment
  · rw [if_pos (isReadable_of_le small), isResult, realloc_empty small]
    exact sound.alloc valid
  have member := returnable.resolve_left small
  have above := Nat.lt_of_not_le small
  rw [if_neg (not_unreadable above)]
  by_cases empty : bytesCount = 0
  · rw [if_pos empty, isResult, empty, realloc_zero above]
    exact sound.free (Or.inr member)
  rw [if_neg empty]
  have held := sound.returned member
  have outcome := held.relocation t valid empty bytesBound
  simp only [← isResult] at outcome
  by_cases refused : r.1 = 0
  · rw [if_neg (not_not.mpr refused)]
    rw [refused] at outcome
    have after := held.reallocated_null (by omega) outcome
    by_cases there : pool.StillThere r.2.toMachine p
    · have kept := after.1 there
      rw [if_pos ((stillThere_iff kept.inv.represents).mpr there)]
      exact kept.perm (List.perm_cons_erase member)
    · have gone := after.2 there
      rw [if_neg (fun still => there ((stillThere_iff gone.inv.represents).mp still))]
      exact gone
  · rw [if_pos refused]
    exact held.reallocated (by omega) bytesBound valid outcome refused

/-- A thread without a cache has nothing but unused cache buckets. -/
theorem idle {t : Nat} (sound : s.Sound pool a rest) (cacheless : s.Cacheless t) (j : Nat) :
    (s.world.tls t j).Idle := by
  rcases SmMalloc.Sound.slots sound t j with idle | serving
  · exact idle
  · have owned := serving.pBucket
    rw [cacheless j] at owned
    cases owned

/-- Writing to the usable bytes of a held block. -/
theorem write {p k : Nat} {v : UInt8} (sound : s.Sound pool a rest) (member : p ∈ s.held)
    (inside : k < Allocator.getUsableSize scheme s.world a p) :
    (Session.step scheme a s (.write p k v)).Sound pool a rest := by
  apply SmMalloc.Sound.write sound
  intro x changed
  have here : x = p + k := by
    by_contra other
    exact changed (Memory.poke_outside other)
  subst here
  have extent := SmMalloc.Sound.extent sound member
  generalize Allocator.getUsableSize scheme s.world a p = size at inside extent
  cases extent with
  | block i o bound block address listed =>
      exact Or.inr ⟨i, o, bound, listed, by omega, by omega⟩
  | heap _ elsewhere live apart =>
      left
      unfold Region.Apart at apart
      simp only at apart
      omega

/-- What a permitted `CreateThreadCache` achieves. -/
theorem created {t : Nat} {warmupOptions : CacheWarmupOptions} {options : List Nat}
    (sound : s.Sound pool a rest)
    (allowed : Allowed scheme a s (.createThreadCache t warmupOptions options)) :
    CacheCreated pool a t 0 rest s.held warmupOptions options s.world
      (Allocator.createThreadCache scheme s.world a t warmupOptions options) := by
  rcases allowed with ⟨cacheless, length, entries, served⟩
  rw [(SmMalloc.Sound.inv sound).represents.bucketsCount] at length
  exact SmMalloc.Sound.createThreadCache_fits sound warmupOptions (sound.idle cacheless)
    (fun v member => by have := entries v member; omega) length served

/-- Every permitted operation keeps the machine sound. -/
theorem step {op : Op} (sound : s.Sound pool a rest) (allowed : Allowed scheme a s op) :
    (Session.step scheme a s op).Sound pool a rest := by
  cases op with
  | alloc t bytesCount alignment => exact sound.alloc allowed.2
  | free t p => exact sound.free allowed
  | realloc t p bytesCount alignment => exact sound.realloc allowed.1 allowed.2.1 allowed.2.2
  | createThreadCache t warmupOptions options => exact (sound.created allowed).sound
  | destroyThreadCache t => exact (SmMalloc.Sound.destroyThreadCache sound t).sound
  | write p k v => exact sound.write allowed.1 allowed.2

/-- Every permitted session keeps a sound machine sound. -/
theorem run {ops : List Op} (sound : s.Sound pool a rest)
    (permitted : (Session.system scheme a _bucketsCount _bucketSizeInBytes).Permitted s ops) :
    ((Session.system scheme a _bucketsCount _bucketSizeInBytes).run s ops).Sound pool a rest := by
  induction ops generalizing s with
  | nil => exact sound
  | cons op ops ih => exact ih (sound.step permitted.1) permitted.2

end Session.Sound

/-- Every reachable session is sound, over the pool that the configuration asks for. -/
theorem Session.reachable_sound (wellFormed : WellFormed scheme _bucketsCount _bucketSizeInBytes)
    (sized : scheme.Sized)
    (reachable : (Session.system scheme a _bucketsCount _bucketSizeInBytes).Reachable s) :
    ∃ (pool : Pool scheme) (rest : List Nat),
      pool.LaidOut _bucketsCount _bucketSizeInBytes (s.world.allocs a).pBuffer ∧
        s.Sound pool a rest := by
  apply reachable.invariant
  · rintro first ⟨w, fresh, -, served, rfl⟩
    rcases wellFormed.sound sized fresh served with ⟨pool, layout, sound⟩
    refine ⟨pool, _, ?_, sound⟩
    have base := sound.inv.represents.pBuffer
    exact ⟨layout.bucketsCount, layout.bucketSizeInBytes, base.symm⟩
  · rintro before op - ⟨pool, rest, layout, sound⟩ allowed
    have after := sound.step allowed
    refine ⟨pool, rest, ?_, after⟩
    have base := SmMalloc.Sound.inv after |>.represents.pBuffer
    exact ⟨layout.bucketsCount, layout.bucketSizeInBytes, base.symm⟩

/-! ## Sessions of a program that has just started -/

theorem World.initial_fresh (answers : Nat -> Nat) (a : Nat) : Fresh a (World.initial answers) where
  constructed := rfl
  tls := fun _ _ => ⟨rfl, rfl, rfl, rfl, rfl, rfl⟩
  apart := List.Pairwise.nil

/-- The session that such a program begins with an `Init`. -/
def Session.initial (scheme : Partitioning) (answers : Nat -> Nat)
    (a _bucketsCount _bucketSizeInBytes : Nat) : Session :=
  ⟨Allocator.init scheme (World.initial answers) a _bucketsCount _bucketSizeInBytes, []⟩

theorem Session.initial_start {answers : Nat -> Nat}
    (served : (World.initial answers).heap.answer (bufferBytes _bucketsCount _bucketSizeInBytes)
      kMaxValidAlignment ≠ 0) :
    Session.Start scheme a _bucketsCount _bucketSizeInBytes
      (Session.initial scheme answers a _bucketsCount _bucketSizeInBytes) :=
  ⟨World.initial answers, World.initial_fresh answers a, rfl, served, rfl⟩

/-! ## Many calls -/

namespace Session

/-- Allocations of blocks of the smallest class. -/
def allocMany (count : Nat) : List Op := List.replicate count (.alloc 0 16 4)

def freeAll (ps : List Nat) : List Op := ps.map (.free 0)

variable (sessions : Transition Session Op)

theorem allocMany_permitted (allows : forall s, sessions.allowed s (.alloc 0 16 4))
    (count : Nat) : forall s, sessions.Permitted s (allocMany count) := by
  induction count with
  | zero => exact fun _ => trivial
  | succ count ih => exact fun s => ⟨allows s, ih _⟩

/-- Held blocks may be freed, one after the other. -/
theorem freeAll_permitted (steps : sessions.next = step scheme a)
    (allows : forall s p, s.Returnable p -> sessions.allowed s (.free 0 p)) :
    forall (ps later : List Nat) (s : Session), s.held = ps ++ later ->
      sessions.Permitted s (freeAll ps) ∧ (sessions.run s (freeAll ps)).held = later := by
  intro ps
  induction ps with
  | nil => exact fun _ _ held => ⟨trivial, held⟩
  | cons p ps ih =>
      intro later s held
      have freed : (sessions.next s (.free 0 p)).held = ps ++ later := by
        rw [steps]
        change s.held.erase p = ps ++ later
        rw [held]
        exact List.erase_cons_head _ _
      have rest := ih later _ freed
      exact ⟨⟨allows s p (Or.inr (held ▸ List.mem_cons_self)), rest.1⟩, rest.2⟩

end Session

/-! ## The smallest configuration -/

theorem onePage_wellFormed (integral : scheme ≠ .float) : WellFormed scheme 1 4096 := by
  refine ⟨⟨by decide, by decide, by decide⟩, ?_⟩
  cases scheme with
  | linear => decide
  | float => exact absurd rfl integral
  | piecewise => decide

/-- One bucket of one page. -/
def Session.onePage : Session := Session.initial .piecewise everyOtherPage 0 1 4096

/-- Thread 1 allocates a block and thread 0, which has a cache, frees it. -/
def onePageRun : List Op := [.createThreadCache 0 .cold [3], .alloc 1 16 4, .free 0 8192]

/-- The session after this run. -/
def Session.onePageUsed : Session :=
  (Session.system .piecewise 0 1 4096).run Session.onePage onePageRun

theorem valid_four : ValidAlignment 4 := ⟨2, by decide, rfl⟩

theorem Session.onePage_reachable :
    (Session.system .piecewise 0 1 4096).Reachable Session.onePage :=
  Transition.Reachable.start (Session.initial_start (by decide))

theorem Session.onePageUsed_reachable :
    (Session.system .piecewise 0 1 4096).Reachable Session.onePageUsed := by
  have permitted : (Session.system .piecewise 0 1 4096).Permitted Session.onePage onePageRun := by
    refine ⟨?_, ?_, Or.inr ?_, trivial⟩
    · exact ⟨fun i => rfl, by decide, by decide, by decide⟩
    · exact ⟨by decide, valid_four⟩
    · decide
  exact Session.onePage_reachable.after permitted

end SmMalloc
