import MirrorCast.Library.JavaString

/-! # Strings across the native interface: modified UTF-8 -/

namespace Java

/-- The bytes of one UTF-16 code unit; zero takes two bytes. -/
def modifiedUtf8Unit (u : ℕ) : List UInt8 :=
  if 1 ≤ u ∧ u < 0x80 then [UInt8.ofNat u]
  else if u < 0x800 then [UInt8.ofNat (0xc0 + u / 64 % 32), UInt8.ofNat (0x80 + u % 64)]
  else
    [UInt8.ofNat (0xe0 + u / 4096 % 16), UInt8.ofNat (0x80 + u / 64 % 64),
      UInt8.ofNat (0x80 + u % 64)]

/-- `GetStringUTFChars(s)`, without the zero at the end. -/
def modifiedUtf8 (s : JString) : List UInt8 := s.flatMap modifiedUtf8Unit

/-- `NewStringUTF(bytes)`, where the bytes are modified UTF-8. -/
def newStringUTF : List UInt8 → Option JString
  | [] => some []
  | a :: bytes =>
      if a < 0x80 then (newStringUTF bytes).map (a.toNat :: ·)
      else
        match bytes with
        | [] => none
        | b :: bytes =>
            if a < 0xe0 then
              (newStringUTF bytes).map ((a.toNat % 32 * 64 + b.toNat % 64) :: ·)
            else
              match bytes with
              | [] => none
              | c :: bytes =>
                  (newStringUTF bytes).map
                    ((a.toNat % 16 * 4096 + b.toNat % 64 * 64 + c.toNat % 64) :: ·)

/-- The characters that take one byte. -/
def OneByte (s : JString) : Prop := ∀ u ∈ s, 1 ≤ u ∧ u < 0x80

theorem modifiedUtf8_append (s t : JString) :
    modifiedUtf8 (s ++ t) = modifiedUtf8 s ++ modifiedUtf8 t := List.flatMap_append

theorem modifiedUtf8_intercalate (separator : JString) (pieces : List JString) :
    modifiedUtf8 (separator.intercalate pieces) =
      (modifiedUtf8 separator).intercalate (pieces.map modifiedUtf8) := by
  induction pieces with
  | nil => rfl
  | cons piece pieces ih =>
      cases pieces with
      | nil => rw [List.intercalate_singleton, List.map_singleton, List.intercalate_singleton]
      | cons piece' pieces =>
          rw [List.intercalate_cons_cons, modifiedUtf8_append, modifiedUtf8_append, ih,
            List.map_cons, List.map_cons, List.map_cons, List.intercalate_cons_cons]

/-- Bytes below `0x80` stand for themselves alone. -/
theorem mem_modifiedUtf8Unit {u : ℕ} {b : UInt8} (h : b ∈ modifiedUtf8Unit u) :
    0x80 ≤ b.toNat ∨ 1 ≤ u ∧ u < 0x80 ∧ b.toNat = u := by
  unfold modifiedUtf8Unit at h
  split at h
  · rename_i hone
    rw [List.mem_singleton.mp h, UInt8.toNat_ofNat']
    omega
  · split at h
    · simp only [List.mem_cons, List.not_mem_nil, or_false] at h
      rcases h with rfl | rfl <;> rw [UInt8.toNat_ofNat'] <;> omega
    · simp only [List.mem_cons, List.not_mem_nil, or_false] at h
      rcases h with rfl | rfl | rfl <;> rw [UInt8.toNat_ofNat'] <;> omega

theorem mem_modifiedUtf8 {s : JString} {n : ℕ} (hlo : 1 ≤ n) (hhi : n < 0x80) :
    UInt8.ofNat n ∈ modifiedUtf8 s ↔ n ∈ s := by
  have hvalue : (UInt8.ofNat n).toNat = n := by
    rw [UInt8.toNat_ofNat']
    omega
  constructor
  · intro h
    obtain ⟨u, hu, hb⟩ := List.mem_flatMap.mp h
    rcases mem_modifiedUtf8Unit hb with hhigh | ⟨-, -, heq⟩
    · omega
    · rwa [← heq, hvalue] at hu
  · intro h
    refine List.mem_flatMap.mpr ⟨n, h, ?_⟩
    rw [modifiedUtf8Unit, if_pos ⟨hlo, hhi⟩]
    exact List.mem_singleton_self _

theorem zero_notMem_modifiedUtf8 (s : JString) : 0 ∉ modifiedUtf8 s := by
  intro h
  obtain ⟨u, -, hb⟩ := List.mem_flatMap.mp h
  rcases mem_modifiedUtf8Unit hb with hhigh | ⟨hlo, -, heq⟩
  · exact absurd hhigh (by decide)
  · rw [← heq] at hlo
    exact absurd hlo (by decide)

theorem length_modifiedUtf8Unit (u : ℕ) : 1 ≤ (modifiedUtf8Unit u).length ∧
    ((modifiedUtf8Unit u).length = 1 ↔ 1 ≤ u ∧ u < 0x80) := by
  unfold modifiedUtf8Unit
  split
  · simp_all
  · split <;> simp_all

/-- A string is no longer than its bytes, and as long only if each character takes one. -/
theorem length_modifiedUtf8 (s : JString) : s.length ≤ (modifiedUtf8 s).length ∧
    ((modifiedUtf8 s).length ≤ s.length → OneByte s) := by
  induction s with
  | nil => exact ⟨Nat.le_refl 0, fun _ => by simp [OneByte]⟩
  | cons u s ih =>
      obtain ⟨hpos, hone⟩ := length_modifiedUtf8Unit u
      have hlength : (modifiedUtf8 (u :: s)).length =
          (modifiedUtf8Unit u).length + (modifiedUtf8 s).length := by
        rw [modifiedUtf8, List.flatMap_cons, List.length_append]
        rfl
      rw [hlength, List.length_cons]
      refine ⟨by omega, fun hle => ?_⟩
      intro v hv
      rcases List.mem_cons.mp hv with rfl | hv
      · exact hone.mp (by omega)
      · exact ih.2 (by omega) v hv

theorem modifiedUtf8_cons {u : ℕ} {s : JString} (h : 1 ≤ u ∧ u < 0x80) :
    modifiedUtf8 (u :: s) = UInt8.ofNat u :: modifiedUtf8 s := by
  rw [modifiedUtf8, List.flatMap_cons, modifiedUtf8Unit, if_pos h]
  rfl

theorem length_of_oneByte {s : JString} (h : OneByte s) : (modifiedUtf8 s).length = s.length := by
  induction s with
  | nil => rfl
  | cons u s ih =>
      rw [modifiedUtf8_cons (h u (by simp)), List.length_cons, List.length_cons,
        ih fun v hv => h v (by simp [hv])]

theorem newStringUTF_modifiedUtf8 {s : JString} (h : OneByte s) :
    newStringUTF (modifiedUtf8 s) = some s := by
  induction s with
  | nil => rfl
  | cons u s ih =>
      have hu := h u (by simp)
      have hvalue : (UInt8.ofNat u).toNat = u := by
        rw [UInt8.toNat_ofNat']
        omega
      have hlt : UInt8.ofNat u < 0x80 := UInt8.lt_iff_toNat_lt.mpr (by rw [hvalue]; exact hu.2)
      rw [modifiedUtf8_cons hu, newStringUTF.eq_def]
      dsimp only
      rw [if_pos hlt, ih fun v hv => h v (by simp [hv]), hvalue]
      rfl

end Java
