import MirrorCast.Library.Outcomes
import MirrorCast.Program.RTPSender.Queueing

/-! # Who holds the pooled buffers -/

namespace MirrorCast.RTPSender.Queueing

open Java ReusePool

variable {s t : State} {b b' : ℕ} {map map' : BufferMap}

/-! ## The maps -/

/-- The buffer is marked in use in one of the maps. -/
def State.InUse (s : State) (b : ℕ) : Prop := ∃ map, ReusePool.InUse (s.abufs map) b

/-- The pooled buffers exist, have the capacity of their map, and belong to one map only. -/
structure Pools (s : State) : Prop where
  allocated : ∀ map, ∀ b ∈ objects (s.abufs map), b < s.allocated
  nodup : ∀ map, (objects (s.abufs map)).Nodup
  one_map : ∀ b map map', b ∈ objects (s.abufs map) → b ∈ objects (s.abufs map') → map = map'
  capacity : ∀ map, ∀ b ∈ objects (s.abufs map), (s.heap b).mData.length = map.capacity

namespace Pools

/-- Only the buffers and the maps matter. -/
theorem congr (h : Pools s) (hheap : t.heap = s.heap) (hallocated : t.allocated = s.allocated)
    (habufs : t.abufs = s.abufs) : Pools t where
  allocated := by
    rw [habufs, hallocated]
    exact h.allocated
  nodup := habufs ▸ h.nodup
  one_map := habufs ▸ h.one_map
  capacity := by
    rw [habufs, hheap]
    exact h.capacity

theorem mark (h : Pools s) (map : BufferMap) (b : ℕ) (inUse : Bool) : Pools (s.mark map b inUse) where
  allocated map' b' hb' := h.allocated map' b' (s.objects_mark map map' b inUse ▸ hb')
  nodup map' := by
    rw [s.objects_mark]
    exact h.nodup map'
  one_map b' map₁ map₂ h₁ h₂ :=
    h.one_map b' map₁ map₂ (s.objects_mark map map₁ b inUse ▸ h₁)
      (s.objects_mark map map₂ b inUse ▸ h₂)
  capacity map' b' hb' := h.capacity map' b' (s.objects_mark map map' b inUse ▸ hb')

theorem update (h : Pools s) {f : PacketBuffer → PacketBuffer}
    (hf : (f (s.heap b)).mData.length = (s.heap b).mData.length) : Pools (s.update b f) :=
  { h with
    capacity := by
      intro map b' hb'
      by_cases hsame : b' = b
      · rw [hsame, State.heap_update_self, hf]
        exact h.capacity map b (hsame ▸ hb')
      · rw [State.heap_update_of_ne hsame]
        exact h.capacity map b' hb' }

theorem inUse_mark_true (hb : b ∈ objects (s.abufs map)) :
    (s.mark map b true).InUse b' ↔ b' = b ∨ s.InUse b' := by
  constructor
  · rintro ⟨map', h⟩
    by_cases hmap : map' = map
    · rw [hmap, State.abufs_mark_self, ReusePool.inUse_mark_true hb] at h
      exact h.imp_right fun h => ⟨map, h⟩
    · rw [State.abufs_mark_of_ne hmap] at h
      exact Or.inr ⟨map', h⟩
  · rintro (rfl | ⟨map', h⟩)
    · refine ⟨map, ?_⟩
      rw [State.abufs_mark_self, ReusePool.inUse_mark_true hb]
      exact Or.inl rfl
    · refine ⟨map', ?_⟩
      by_cases hmap : map' = map
      · rw [hmap, State.abufs_mark_self, ReusePool.inUse_mark_true hb]
        exact Or.inr (hmap ▸ h)
      · rw [State.abufs_mark_of_ne hmap]
        exact h

theorem inUse_mark_false (h : Pools s) (hb : b ∈ objects (s.abufs map)) :
    (s.mark map b false).InUse b' ↔ b' ≠ b ∧ s.InUse b' := by
  constructor
  · rintro ⟨map', hused⟩
    by_cases hmap : map' = map
    · rw [hmap, State.abufs_mark_self, ReusePool.inUse_mark_false] at hused
      exact ⟨hused.1, map, hused.2⟩
    · rw [State.abufs_mark_of_ne hmap] at hused
      refine ⟨?_, map', hused⟩
      rintro rfl
      exact hmap (h.one_map b' map' map hused.mem_objects hb)
  · rintro ⟨hne, map', hused⟩
    refine ⟨map', ?_⟩
    by_cases hmap : map' = map
    · rw [hmap, State.abufs_mark_self, ReusePool.inUse_mark_false]
      exact ⟨hne, hmap ▸ hused⟩
    · rw [State.abufs_mark_of_ne hmap]
      exact hused

end Pools

/-- A map with a buffer that has just been made for it. -/
def State.pooled (s : State) (world : World) (map : BufferMap) : State :=
  { s with
    heap := Function.update s.heap s.allocated (.new map.capacity)
    allocated := s.allocated + 1
    abufs := Function.update s.abufs map
      (ReusePool.insert world.hashCode (s.abufs map) s.allocated) }

theorem mem_objects_pooled {world : World} :
    b ∈ objects ((s.pooled world map).abufs map') ↔
      map' = map ∧ b = s.allocated ∨ b ∈ objects (s.abufs map') := by
  by_cases hmap : map' = map
  · rw [hmap]
    change b ∈ objects (Function.update s.abufs map _ map) ↔ _
    rw [Function.update_self, (objects_insert world.hashCode).mem_iff, List.mem_cons]
    simp
  · change b ∈ objects (Function.update s.abufs map _ map') ↔ _
    rw [Function.update_of_ne hmap]
    simp [hmap]

theorem inUse_pooled {world : World} :
    (s.pooled world map).InUse b ↔ b = s.allocated ∨ s.InUse b := by
  constructor
  · rintro ⟨map', hused⟩
    change ReusePool.InUse (Function.update s.abufs map _ map') b at hused
    by_cases hmap : map' = map
    · rw [hmap, Function.update_self, inUse_insert] at hused
      exact hused.imp_right fun h => ⟨map, h⟩
    · rw [Function.update_of_ne hmap] at hused
      exact Or.inr ⟨map', hused⟩
  · intro hused
    have hmap : ReusePool.InUse ((s.pooled world map).abufs map) b ↔
        b = s.allocated ∨ ReusePool.InUse (s.abufs map) b := by
      change ReusePool.InUse (Function.update s.abufs map _ map) b ↔ _
      rw [Function.update_self, inUse_insert]
    rcases hused with hnew | ⟨map', hused⟩
    · exact ⟨map, hmap.mpr (Or.inl hnew)⟩
    · by_cases hsame : map' = map
      · exact ⟨map, hmap.mpr (Or.inr (hsame ▸ hused))⟩
      · refine ⟨map', ?_⟩
        change ReusePool.InUse (Function.update s.abufs map _ map') b
        rwa [Function.update_of_ne hsame]

theorem Pools.pooled (h : Pools s) (world : World) (map : BufferMap) :
    Pools (s.pooled world map) where
  allocated map' b hb := by
    change b < s.allocated + 1
    rcases mem_objects_pooled.mp hb with ⟨-, rfl⟩ | hb
    · exact Nat.lt_succ_self _
    · exact Nat.lt_succ_of_lt (h.allocated map' b hb)
  nodup map' := by
    by_cases hmap : map' = map
    · rw [hmap]
      change (objects (Function.update s.abufs map _ map)).Nodup
      rw [Function.update_self, (objects_insert world.hashCode).nodup_iff, List.nodup_cons]
      exact ⟨fun hmem => Nat.lt_irrefl _ (h.allocated map _ hmem), h.nodup map⟩
    · change (objects (Function.update s.abufs map _ map')).Nodup
      rw [Function.update_of_ne hmap]
      exact h.nodup map'
  one_map b map₁ map₂ h₁ h₂ := by
    rcases mem_objects_pooled.mp h₁ with ⟨rfl, rfl⟩ | h₁
    · rcases mem_objects_pooled.mp h₂ with ⟨rfl, -⟩ | h₂
      · rfl
      · exact absurd (h.allocated map₂ _ h₂) (Nat.lt_irrefl _)
    · rcases mem_objects_pooled.mp h₂ with ⟨-, rfl⟩ | h₂
      · exact absurd (h.allocated map₁ _ h₁) (Nat.lt_irrefl _)
      · exact h.one_map b map₁ map₂ h₁ h₂
  capacity map' b hb := by
    change (Function.update s.heap s.allocated _ b).mData.length = _
    rcases mem_objects_pooled.mp hb with ⟨rfl, rfl⟩ | hb
    · rw [Function.update_self]
      exact List.length_replicate
    · rw [Function.update_of_ne (Nat.ne_of_lt (h.allocated map' b hb))]
      exact h.capacity map' b hb

/-! ## The buffers in use -/

/-- Recycling a buffer changes that buffer and the maps. -/
theorem State.recycle_eq (s : State) (b : ℕ) :
    ∃ abufs, s.recycle b = { s.update b .reset with abufs } := by
  unfold State.recycle
  dsimp only
  split
  · exact ⟨_, rfl⟩
  · exact ⟨_, rfl⟩

/-- Exactly the buffers of the list are in use. -/
structure Holds (connected : Bool) (held : List ℕ) (s : State) : Prop where
  connected_eq : s.mRTPConnected = connected
  pools : Pools s
  inUse : ∀ b, s.InUse b ↔ b ∈ held
  nodup : held.Nodup

namespace Holds

variable {connected : Bool} {held held' : List ℕ}

theorem perm (h : Holds connected held s) (hperm : held.Perm held') : Holds connected held' s :=
  { h with
    inUse := fun b => (h.inUse b).trans hperm.mem_iff
    nodup := hperm.nodup_iff.mp h.nodup }

/-- The rest of the state does not matter. -/
theorem congr (h : Holds connected held s) (hheap : t.heap = s.heap)
    (hallocated : t.allocated = s.allocated) (habufs : t.abufs = s.abufs)
    (hconnected : t.mRTPConnected = s.mRTPConnected) : Holds connected held t where
  connected_eq := hconnected.trans h.connected_eq
  pools := h.pools.congr hheap hallocated habufs
  inUse b := by
    rw [← h.inUse b, State.InUse, State.InUse, habufs]
  nodup := h.nodup

theorem mem_objects (h : Holds connected held s) (hb : b ∈ held) :
    ∃ map, b ∈ objects (s.abufs map) := by
  obtain ⟨map, hused⟩ := (h.inUse b).mpr hb
  exact ⟨map, hused.mem_objects⟩

theorem update (h : Holds connected held s) {f : PacketBuffer → PacketBuffer}
    (hf : (f (s.heap b)).mData.length = (s.heap b).mData.length) :
    Holds connected held (s.update b f) :=
  { h with pools := h.pools.update hf }

/-- A free buffer that is taken was not held. -/
theorem not_mem_of_free? (h : Holds connected held s) (hfree : free? (s.abufs map) = some b) :
    b ∉ held := by
  obtain ⟨hmem, hnot⟩ := not_inUse_of_free? (h.pools.nodup map) hfree
  rw [← h.inUse b]
  rintro ⟨map', hused⟩
  exact hnot (h.pools.one_map b map' map hused.mem_objects hmem ▸ hused)

theorem take (h : Holds connected held s) (hfree : free? (s.abufs map) = some b) :
    Holds connected (b :: held) (s.mark map b true) :=
  { h with
    pools := h.pools.mark map b true
    inUse := fun b' => by
      rw [Pools.inUse_mark_true (not_inUse_of_free? (h.pools.nodup map) hfree).1, h.inUse b',
        List.mem_cons]
    nodup := List.nodup_cons.mpr ⟨h.not_mem_of_free? hfree, h.nodup⟩ }

theorem allocated_not_mem (h : Holds connected held s) : s.allocated ∉ held := by
  intro hb
  obtain ⟨map, hmem⟩ := h.mem_objects hb
  exact Nat.lt_irrefl _ (h.pools.allocated map _ hmem)

theorem pooled (h : Holds connected held s) (world : World) (map : BufferMap) :
    Holds connected (s.allocated :: held) (s.pooled world map) :=
  { h with
    pools := h.pools.pooled world map
    inUse := fun b' => by rw [inUse_pooled, h.inUse b', List.mem_cons]
    nodup := List.nodup_cons.mpr ⟨h.allocated_not_mem, h.nodup⟩ }

/-- A buffer that is recycled is free. -/
theorem recycle (h : Holds connected (b :: held) s) : Holds connected held (s.recycle b) := by
  have hreset : Holds connected (b :: held) (s.update b .reset) := h.update rfl
  obtain ⟨map, hmem, hmap⟩ : ∃ map, b ∈ objects (s.abufs map) ∧
      s.recycle b = (s.update b .reset).mark map b false := by
    obtain ⟨map, hmem⟩ := h.mem_objects List.mem_cons_self
    unfold State.recycle
    dsimp only
    split
    · rename_i hts
      exact ⟨.TS_ABUFS, hts, rfl⟩
    · rename_i hts
      cases map with
      | TS_ABUFS => exact absurd hmem hts
      | AVC_ABUFS => exact ⟨.AVC_ABUFS, hmem, rfl⟩
  obtain ⟨hnot, hnodup⟩ := List.nodup_cons.mp h.nodup
  rw [hmap]
  refine { hreset with
    pools := hreset.pools.mark map b false
    inUse := fun b' => ?_
    nodup := hnodup }
  rw [hreset.pools.inUse_mark_false hmem, hreset.inUse b', List.mem_cons]
  constructor
  · rintro ⟨hne, heq | hb'⟩
    · exact absurd heq hne
    · exact hb'
  · intro hb'
    exact ⟨fun heq => hnot (heq ▸ hb'), Or.inr hb'⟩

end Holds

/-! ## The history -/

/-- The packets stored in the history, from the first one on. -/
def State.stored (s : State) : List SentPacket :=
  (s.taken.filter fun r => r.storeInHistory).map Taken.packet

/-- The history holds the last packets that were stored, as they were. -/
structure Remembers (s : State) : Prop where
  size_eq : s.mHistorySize = s.mHistory.length
  size_le : s.mHistory.length ≤ MAX_HISTORY_SIZE
  kept : ∃ older, s.stored = older ++ s.mHistory.map s.packet ∧
    (s.mHistory.length < MAX_HISTORY_SIZE → older = [])

theorem Remembers.congr (h : Remembers s) (hsize : t.mHistorySize = s.mHistorySize)
    (hhistory : t.mHistory = s.mHistory) (htaken : t.stored = s.stored)
    (hheap : ∀ b ∈ s.mHistory, t.packet b = s.packet b) : Remembers t where
  size_eq := by rw [hsize, hhistory, h.size_eq]
  size_le := by rw [hhistory]; exact h.size_le
  kept := by
    obtain ⟨older, hstored, holder⟩ := h.kept
    refine ⟨older, ?_, by rw [hhistory]; exact holder⟩
    rw [htaken, hstored, hhistory, List.map_congr_left hheap]

/-- The buffers in use are those in `owned` and those in the history; the requests from `start` on
are those of the call under way. -/
structure Owns (start : ℕ) (connected : Bool) (owned : List ℕ) (s : State) : Prop where
  holds : Holds connected (owned ++ s.mHistory) s
  remembers : Remembers s
  since : start ≤ s.requests

theorem owns_initial : Owns 0 false [] .initial where
  holds := ⟨rfl, ⟨by simp [State.initial, objects], by simp [State.initial, objects],
    by simp [State.initial, objects], by simp [State.initial, objects]⟩,
    by simp [State.initial, State.InUse, ReusePool.InUse], by simp [State.initial]⟩
  remembers := ⟨rfl, Nat.zero_le _, [], rfl, fun _ => rfl⟩
  since := le_rfl

namespace Owns

variable {start : ℕ} {connected : Bool} {owned owned' : List ℕ}

/-- The next call starts. -/
theorem restart (h : Owns start connected owned s) : Owns s.requests connected owned s :=
  { h with since := le_rfl }

/-- More requests and other sequence numbers do not matter. -/
theorem counted (h : Owns start connected owned s) (mRTPSeqNo : ℤ) {requests : ℕ}
    (hrequests : s.requests ≤ requests) :
    Owns start connected owned { s with mRTPSeqNo, requests } :=
  ⟨h.holds.congr rfl rfl rfl rfl, h.remembers.congr rfl rfl rfl fun _ _ => rfl,
    h.since.trans hrequests⟩

theorem perm (h : Owns start connected owned s) (hperm : owned.Perm owned') :
    Owns start connected owned' s :=
  ⟨h.holds.perm (hperm.append_right s.mHistory), h.remembers, h.since⟩

/-- A buffer that is owned is not in the history. -/
theorem not_mem_history (h : Owns start connected owned s) (hb : b ∈ owned) : b ∉ s.mHistory :=
  fun hmem => (List.nodup_append.mp h.holds.nodup).2.2 b hb b hmem rfl

/-- There is room for a header. -/
theorem roomy (h : Owns start connected owned s) (hb : b ∈ owned) : 12 ≤ (s.heap b).mData.length := by
  obtain ⟨map, hmem⟩ := h.holds.mem_objects (List.mem_append_left s.mHistory hb)
  rw [h.holds.pools.capacity map b hmem]
  cases map with
  | TS_ABUFS => decide
  | AVC_ABUFS => decide

theorem packet_update {f : PacketBuffer → PacketBuffer} (hne : b' ≠ b) :
    (s.update b f).packet b' = s.packet b' := by
  rw [State.packet, State.packet, State.heap_update_of_ne hne]

/-- What is written into an owned buffer leaves the history as it is. -/
theorem update (h : Owns start connected owned s) (hb : b ∈ owned) {f : PacketBuffer → PacketBuffer}
    (hf : (f (s.heap b)).mData.length = (s.heap b).mData.length) :
    Owns start connected owned (s.update b f) where
  holds := h.holds.update hf
  remembers := h.remembers.congr rfl rfl rfl fun _ hb' =>
    packet_update fun heq => h.not_mem_history hb (heq ▸ hb')
  since := h.since

theorem take (h : Owns start connected owned s) (hfree : free? (s.abufs map) = some b) :
    Owns start connected (b :: owned) (s.mark map b true) where
  holds := h.holds.take hfree
  remembers := h.remembers.congr rfl rfl rfl fun _ _ => rfl
  since := h.since

theorem pooled (h : Owns start connected owned s) (world : World) (map : BufferMap) :
    Owns start connected (s.allocated :: owned) (s.pooled world map) where
  holds := h.holds.pooled world map
  remembers := h.remembers.congr rfl rfl rfl fun b' hb' => by
    have hne : b' ≠ s.allocated := fun heq =>
      h.holds.allocated_not_mem (List.mem_append_right _ (heq ▸ hb'))
    change (⟨(Function.update s.heap s.allocated _ b').mInt32Data,
      (Function.update s.heap s.allocated _ b').bytes⟩ : SentPacket) = s.packet b'
    rw [Function.update_of_ne hne]
    rfl
  since := h.since

theorem recycle (h : Owns start connected (b :: owned) s) : Owns start connected owned (s.recycle b) := by
  have hholds := h.holds.recycle
  obtain ⟨abufs, hrecycle⟩ := s.recycle_eq b
  rw [hrecycle] at hholds ⊢
  refine ⟨hholds, h.remembers.congr rfl rfl rfl fun b' hb' => ?_, h.since⟩
  exact packet_update (s := s) fun heq => h.not_mem_history List.mem_cons_self (heq ▸ hb')

end Owns

end MirrorCast.RTPSender.Queueing
