import FastcgiContainer.FileRequestCache

/-! A run depends only on the keys that it generates. There are finitely many digests, so
keys can be distinct in a run, but not for ever; a run is the same under keys that are. -/

namespace FastcgiContainer

open Word (Bytes)

section Generator

variable {keys other : Nat → Bytes} {config : CacheConfig}

namespace FileRequestCache

variable (cache : FileRequestCache)

theorem create_congr (opens : Bool) (agree : keys cache.drawn = other cache.drawn) :
    cache.create keys config opens = cache.create other config opens := by
  simp only [create, generateUniqueKey, agree]

theorem createHardLink_drawn (key : Bytes) (links : Bool) :
    (cache.createHardLink keys config key links).1.drawn = cache.drawn + 1 := by
  simp only [createHardLink]
  split <;> rfl

theorem createHardLink_congr (key : Bytes) (links : Bool) (agree : keys cache.drawn = other cache.drawn) :
    cache.createHardLink keys config key links = cache.createHardLink other config key links := by
  simp only [createHardLink, generateUniqueKey, agree]

theorem createFileBuffer_drawn {next : FileRequestCache} {key : Bytes} {opens : Bool} {file : Nat}
    (opened : cache.createFileBuffer config key opens = .ok (next, file)) : next.drawn = cache.drawn := by
  cases opens with
  | false => cases opened
  | true =>
      cases opened
      rfl

section Save

variable (filename : Bytes) (image : Except Exn Bytes) (key : Bytes) (calls : Calls)

theorem saveRequest_drawn :
    cache.drawn ≤ (cache.saveRequest keys config filename image key calls).1.drawn := by
  unfold saveRequest
  split
  · cases opened : cache.createFileBuffer config key calls.opens with
    | error exn => exact le_refl _
    | ok result =>
        obtain ⟨next, file⟩ := result
        have same := cache.createFileBuffer_drawn opened
        cases image with
        | error exn => exact same.ge
        | ok data =>
            simp only [dropBuffer, createHardLink_drawn]
            omega
  · simp only [createHardLink_drawn]
    exact Nat.le_succ _

theorem saveRequest_congr
    (agree : cache.drawn < (cache.saveRequest keys config filename image key calls).1.drawn →
      keys cache.drawn = other cache.drawn) :
    cache.saveRequest keys config filename image key calls =
      cache.saveRequest other config filename image key calls := by
  unfold saveRequest at agree ⊢
  cases stored : isStored config filename with
  | true =>
      simp only [stored, Bool.not_true, Bool.false_eq_true, if_false, createHardLink_drawn] at agree
      simp only [Bool.not_true, Bool.false_eq_true, if_false]
      rw [createHardLink_congr _ _ _ (agree (Nat.lt_succ_self _))]
  | false =>
      simp only [stored, Bool.not_false, if_true] at agree
      simp only [Bool.not_false, if_true]
      cases opened : cache.createFileBuffer config key calls.opens with
      | error exn => rfl
      | ok result =>
          obtain ⟨next, file⟩ := result
          have same := cache.createFileBuffer_drawn opened
          cases image with
          | error exn => rfl
          | ok data =>
              simp only [opened, dropBuffer, createHardLink_drawn, same] at agree
              simp only
              rw [createHardLink_congr]
              simp only [same]
              exact agree (Nat.lt_succ_self _)

variable (delay : Int) (found : Bool) (retries : Nat)

theorem putOff_drawn : (cache.putOff keys config filename delay image key found retries calls).1.drawn =
    (cache.saveRequest keys config filename image key calls).1.drawn := by
  unfold putOff
  generalize cache.saveRequest keys config filename image key calls = result
  obtain ⟨next, outcome⟩ := result
  cases outcome with
  | error exn => rfl
  | ok newKey =>
      simp only
      split <;> cases found <;> rfl

theorem putOff_congr
    (agree : cache.drawn < (cache.putOff keys config filename delay image key found retries calls).1.drawn →
      keys cache.drawn = other cache.drawn) :
    cache.putOff keys config filename delay image key found retries calls =
      cache.putOff other config filename delay image key found retries calls := by
  rw [putOff_drawn] at agree
  unfold putOff
  rw [saveRequest_congr cache filename image key calls agree]

theorem getKey_drawn : cache.drawn ≤ (cache.getKey keys config filename).1.drawn := by
  simp only [getKey]
  split
  · exact Nat.le_succ _
  · exact le_refl _

theorem getKey_congr (agree : cache.drawn < (cache.getKey keys config filename).1.drawn →
      keys cache.drawn = other cache.drawn) :
    cache.getKey keys config filename = cache.getKey other config filename := by
  simp only [getKey] at agree ⊢
  split
  · next empty =>
      rw [if_pos empty] at agree
      rw [generateUniqueKey, agree (Nat.lt_succ_self _)]
      rfl
  · rfl

def saveAs (keys : Nat → Bytes) (config : CacheConfig) (cache : FileRequestCache) (filename : Bytes)
    (delay : Int) (image : Except Exn Bytes) (key : Bytes) (calls : Calls) :
    FileRequestCache × Except Exn Unit :=
  match cache.active.find? key with
  | none => cache.putOff keys config filename delay image key false 1 calls
  | some retries =>
      if retries ≥ config.maxRetries then (cache.eraseActive key, .ok ())
      else cache.putOff keys config filename delay image key true (retries + 1) calls

theorem save_saveAs (wanted : ¬(delay = 0 ∨ config.maxRetries = 0)) :
    cache.save keys config filename delay image calls =
      (cache.getKey keys config filename).1.saveAs keys config filename delay image
        (cache.getKey keys config filename).2 calls := by
  rw [save, if_neg wanted]
  rfl

theorem saveAs_drawn :
    cache.drawn ≤ (cache.saveAs keys config filename delay image key calls).1.drawn := by
  unfold saveAs
  split
  · rw [putOff_drawn]
    exact cache.saveRequest_drawn filename image key calls
  · split
    · exact le_refl _
    · rw [putOff_drawn]
      exact cache.saveRequest_drawn filename image key calls

theorem saveAs_congr
    (agree : cache.drawn < (cache.saveAs keys config filename delay image key calls).1.drawn →
      keys cache.drawn = other cache.drawn) :
    cache.saveAs keys config filename delay image key calls =
      cache.saveAs other config filename delay image key calls := by
  unfold saveAs at agree ⊢
  cases found : cache.active.find? key with
  | none =>
      simp only [found] at agree ⊢
      exact cache.putOff_congr filename image key calls delay false 1 agree
  | some retries =>
      simp only [found] at agree ⊢
      split
      · rfl
      · next few =>
          rw [if_neg few] at agree
          exact cache.putOff_congr filename image key calls delay true (retries + 1) agree

theorem save_drawn : cache.drawn ≤ (cache.save keys config filename delay image calls).1.drawn := by
  by_cases skipped : delay = 0 ∨ config.maxRetries = 0
  · simp only [save, if_pos skipped]
    split <;> exact le_refl _
  · rw [save_saveAs _ _ _ _ _ skipped]
    exact le_trans (cache.getKey_drawn filename) (saveAs_drawn _ filename image _ calls delay)

theorem save_congr (agree : ∀ number < (cache.save keys config filename delay image calls).1.drawn,
      keys number = other number) :
    cache.save keys config filename delay image calls =
      cache.save other config filename delay image calls := by
  by_cases skipped : delay = 0 ∨ config.maxRetries = 0
  · simp only [save, if_pos skipped]
  · rw [save_saveAs _ _ _ _ _ skipped] at agree ⊢
    rw [save_saveAs _ _ _ _ _ skipped]
    have keyed : cache.getKey keys config filename = cache.getKey other config filename := by
      apply cache.getKey_congr filename
      intro drew
      exact agree _ (lt_of_lt_of_le drew (saveAs_drawn _ filename image _ calls delay))
    rw [← keyed]
    exact saveAs_congr _ filename image _ calls delay (agree _)

end Save

theorem handle_drawn (config : CacheConfig) (opens : Bool) :
    (cache.handle config opens).1.drawn = cache.drawn := by
  simp only [handle, takeWaiting]
  cases cache.waiting with
  | nil => rfl
  | cons entry rest =>
      simp only
      by_cases early : entry.1 > cache.now
      · rw [if_pos early]
      · rw [if_neg early]
        cases opens <;> rfl

end FileRequestCache

namespace CacheWorld

variable (world : CacheWorld)

theorem attach_drawn (image : Bytes) (opens : Bool) :
    (world.attach keys config image opens).cache.drawn = world.cache.drawn + 1 := by
  cases opens <;> rfl

theorem retry_drawn (opens parses : Bool) :
    (world.retry config opens parses).cache.drawn = world.cache.drawn := by
  have kept := world.cache.handle_drawn config opens
  unfold retry
  generalize world.cache.handle config opens = result at kept ⊢
  obtain ⟨cache, task⟩ := result
  cases task with
  | none => exact kept
  | some task => cases parses <;> exact kept

theorem step_drawn (action : Action) :
    world.cache.drawn ≤ (world.step keys config action).cache.drawn := by
  cases action with
  | arrive image => exact le_refl _
  | create image opens => exact (Nat.le_succ _).trans (world.attach_drawn image opens).ge
  | execute index =>
      simp only [step]
      split <;> exact le_refl _
  | tryAgain index delay =>
      simp only [step]
      split <;> exact le_refl _
  | save index serializes calls =>
      simp only [step]
      split
      · exact le_refl _
      · exact FileRequestCache.save_drawn _ _ _ _ _
  | handle opens parses => exact (world.retry_drawn opens parses).ge
  | release index =>
      simp only [step]
      split
      · exact le_refl _
      · unfold release
        simp only
        split <;> exact le_refl _
  | elapse time => exact le_refl _

theorem own_congr (cache : FileRequestCache) (origin : Nat)
    (agree : ∀ number < cache.drawn, keys number = other number) :
    world.own keys cache origin = world.own other cache origin := by
  funext key
  have same : ((List.range cache.drawn).drop world.cache.drawn).any (fun number => keys number == key) =
      ((List.range cache.drawn).drop world.cache.drawn).any (fun number => other number == key) := by
    rw [Bool.eq_iff_iff, List.any_eq_true, List.any_eq_true]
    apply exists_congr
    intro number
    apply and_congr_right
    intro member
    rw [agree number (List.mem_range.mp (List.mem_of_mem_drop member))]
  simp only [own, same]

theorem step_congr (action : Action)
    (agree : ∀ number < (world.step keys config action).cache.drawn, keys number = other number) :
    world.step keys config action = world.step other config action := by
  cases action with
  | create image opens =>
      have same := agree world.cache.drawn (by
        simp only [step, attach_drawn]
        exact Nat.lt_succ_self _)
      simp only [step, attach, FileRequestCache.create_congr _ _ same]
  | save index serializes calls =>
      simp only [step] at agree ⊢
      cases living : world.live index with
      | none => rfl
      | some request =>
          simp only [living, saveToCache] at agree
          simp only [saveToCache]
          rw [← FileRequestCache.save_congr _ _ _ _ _ agree, world.own_congr _ _ agree]
  | arrive image => rfl
  | execute index => rfl
  | tryAgain index delay => rfl
  | handle opens parses => rfl
  | release index => rfl
  | elapse time => rfl

theorem run_drawn (actions : List Action) :
    world.cache.drawn ≤ (world.run keys config actions).cache.drawn := by
  induction actions generalizing world with
  | nil => exact le_refl _
  | cons action rest ih => exact (world.step_drawn action).trans (ih _)

theorem run_congr (actions : List Action)
    (agree : ∀ number < (world.run keys config actions).cache.drawn, keys number = other number) :
    world.run keys config actions = world.run other config actions := by
  induction actions generalizing world with
  | nil => rfl
  | cons action rest ih =>
      have same : world.step keys config action = world.step other config action := by
        apply world.step_congr action
        intro number generated
        exact agree number (lt_of_lt_of_le generated (run_drawn _ rest))
      have later := ih (world.step keys config action) agree
      rw [same] at later
      exact (congrArg (fun next => next.run keys config rest) same).trans later

end CacheWorld

end Generator

/-- Each key is the digest of a counter, the time and the thread. -/
def generatedKeys (digests : Nat → Fin 16 → UInt8) (number : Nat) : Bytes :=
  HashUtils.hexMD5 (digests number)

def DistinctKeys (digests : Nat → Fin 16 → UInt8) (bound : Nat) : Prop :=
  ∀ left < bound, ∀ right < bound,
    generatedKeys digests left = generatedKeys digests right → left = right

instance (digests : Nat → Fin 16 → UInt8) (bound : Nat) : Decidable (DistinctKeys digests bound) :=
  inferInstanceAs (Decidable (∀ left < bound, ∀ right < bound,
    generatedKeys digests left = generatedKeys digests right → left = right))

def extendKeys (digests : Nat → Fin 16 → UInt8) (bound number : Nat) : Bytes :=
  if number < bound then generatedKeys digests number else List.replicate (33 + number) 0

theorem length_generatedKeys (digests : Nat → Fin 16 → UInt8) (number : Nat) :
    (generatedKeys digests number).length = 32 :=
  HashUtils.length_hexMD5 _

theorem extendKeys_ne_nil (digests : Nat → Fin 16 → UInt8) (bound number : Nat) :
    extendKeys digests bound number ≠ [] := by
  unfold extendKeys
  split
  · apply List.ne_nil_of_length_pos
    rw [length_generatedKeys]
    decide
  · apply List.ne_nil_of_length_pos
    rw [List.length_replicate]
    omega

theorem extendKeys_injective (digests : Nat → Fin 16 → UInt8) (bound : Nat)
    (distinct : DistinctKeys digests bound) :
    Function.Injective (extendKeys digests bound) := by
  intro left right same
  have lengths := congrArg List.length same
  unfold extendKeys at same lengths
  split at same
  · next inside =>
      split at same
      · next also => exact distinct left inside right also same
      · next outside =>
          rw [if_pos inside, if_neg outside, length_generatedKeys, List.length_replicate] at lengths
          omega
  · next outside =>
      split at same
      · next inside =>
          rw [if_pos inside, if_neg outside, length_generatedKeys, List.length_replicate] at lengths
          omega
      · next also =>
          rw [if_neg outside, if_neg also, List.length_replicate, List.length_replicate] at lengths
          omega

theorem CacheWorld.run_extended (digests : Nat → Fin 16 → UInt8) (config : CacheConfig)
    (world : CacheWorld) (actions : List CacheWorld.Action)
    (distinct : DistinctKeys digests
      (world.run (generatedKeys digests) config actions).cache.drawn) :
    ∃ keys : Nat → Bytes, Function.Injective keys ∧ (∀ number, keys number ≠ []) ∧
      ∀ before, before <+: actions →
        world.run (generatedKeys digests) config before = world.run keys config before := by
  refine ⟨extendKeys digests _, extendKeys_injective digests _ distinct,
    extendKeys_ne_nil digests _, ?_⟩
  rintro before ⟨after, rfl⟩
  apply world.run_congr
  intro number generated
  rw [extendKeys, if_pos]
  apply lt_of_lt_of_le generated
  rw [run, run, List.foldl_append]
  exact run_drawn _ after

end FastcgiContainer
