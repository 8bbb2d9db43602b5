import MirrorCast.Program.MyJni
import MirrorCast.Program.PlayerActivity
import MirrorCast.Verification.Udp.Splicing

/-! # The trailer of the arrays in the play queue -/

namespace MirrorCast.Udp

open Java Pieces MediaClient MediaServer

/-! ## Readers of the trailer -/

/-- An array of the play queue that ends a frame with the orientation and flags of `f`. -/
structure Trailed (f : Frame) (payload d : List UInt8) : Prop where
  bytes : d = payload ++ [orientation f.isPortrait, f.flagByte]
  length : payload.length = f.data.length

theorem flags_trailed {f : Frame} {payload d : List UInt8} (h : Trailed f payload d) :
    MyJni.flags d = .ok f.flagByte := by
  rw [h.bytes, MyJni.flags, List.getLast?_append_of_ne_nil _ (by simp)]
  rfl

theorem feed_trailed {f : Frame} {payload d : List UInt8} (h : Trailed f payload d)
    (isPortrait : Bool) :
    PlayerActivity.feed isPortrait d =
      .ok (if isPortrait = f.isPortrait then some payload else none) := by
  have hlength : d.length = payload.length + 2 := by simp [h.bytes]
  have hmark : d.getD (d.length - 2) 0 = orientation f.isPortrait := by
    rw [hlength, Nat.add_sub_cancel, h.bytes, List.getD_eq_getElem?_getD,
      List.getElem?_append_right le_rfl, Nat.sub_self]
    rfl
  have htake : d.take (d.length - 2) = payload := by
    rw [hlength, Nat.add_sub_cancel, h.bytes, List.take_left]
  rw [PlayerActivity.feed, if_neg (by omega)]
  simp only [hmark, htake]
  cases isPortrait <;> cases f.isPortrait <;> rfl

/-- The low bit of the flags survives the cast to a byte. -/
theorem flagByte_and_one (f : Frame) :
    ((f.flagByte &&& BUFFER_FLAG_KEY_FRAME) != 0) = decide (f.flags % 2 = 1) := by
  have hbit : ∀ b : UInt8, ((b &&& 1) != 0) = decide (b.toNat % 2 = 1) := by decide +kernel
  have hmod : f.flagByte.toNat % 2 = 1 ↔ f.flags % 2 = 1 := by
    rw [Frame.flagByte, toNat_toByte]
    omega
  rw [show BUFFER_FLAG_KEY_FRAME = 1 from rfl, hbit, decide_eq_decide]
  exact hmod

/-! ## Arrays of the loop -/

/-- An open buffer has room for its frame and the trailer. -/
def Roomy (s : LoopState) : Prop :=
  s.tempLength ≠ 0 → (s.tempData.length : ℤ) = s.tempLength + 2

/-- The array of an event carries the trailer of the frame that fragment `g` belongs to. -/
def CarriesTrailer (g : Fragment) (event : LoopEvent) : Prop :=
  ∀ d, event = .putData d → ∃ payload, Trailed g.frame payload d

theorem carriesTrailer_notice (g : Fragment) : ∀ o ∈ notice g.frame, CarriesTrailer g o := by
  intro o ho d hd
  unfold notice at ho
  split at ho
  · simp [List.mem_singleton.mp ho] at hd
  · simp at ho

theorem set_set_end {xs : List UInt8} {n : ℕ} (h : xs.length = n + 2) (x y : UInt8) :
    (xs.set n x).set (n + 1) y = xs.take n ++ [x, y] := by
  obtain ⟨a, b, hdrop⟩ := List.length_eq_two.mp (show (xs.drop n).length = 2 by simp [h])
  have hlength : (xs.take n).length = n := by simp [h]
  conv_lhs => rw [← List.take_append_drop n xs, hdrop]
  rw [List.set_append_right _ _ (by omega), List.set_append_right _ _ (by omega), hlength]
  simp

theorem roomy_opened {g : Fragment} (hw : ¬ g.Whole) : Roomy (opened g) := by
  intro _
  have hlen : LIMIT_DATA < g.frame.data.length := Nat.lt_of_not_le hw
  have hblit : (opened g).tempData.length = g.frame.data.length + 2 := by
    rw [opened, length_blit] <;> simp
    omega
  rw [hblit]
  simp [opened]

theorem nextFragment_trailer {s s' : LoopState} {g : Fragment} {out : List LoopEvent}
    (hroomy : Roomy s) (hw : ¬ g.Whole) (hlength : s.tempLength = g.frame.data.length)
    (h : nextFragment s g.datagram = .ok (s', out)) :
    Roomy s' ∧ ∀ o ∈ out, CarriesTrailer g o := by
  have hpos : s.tempLength ≠ 0 := by
    have hlt : LIMIT_DATA < g.frame.data.length := Nat.lt_of_not_le hw
    omega
  have hroom := hroomy hpos
  unfold nextFragment at h
  dsimp only at h
  split at h
  · cases h
    refine ⟨hroomy, fun o ho d hd => ?_⟩
    rw [List.mem_singleton.mp ho] at hd
    cases hd
  · split at h
    · obtain ⟨tempData, hcopy, hrest⟩ := bind_eq_ok.mp h
      cases hrest
      refine ⟨fun _ => ?_, by simp⟩
      change (tempData.length : ℤ) = s.tempLength + 2
      rw [length_of_arraycopy hcopy, hroom]
    · obtain ⟨tempData, hcopy, hrest⟩ := bind_eq_ok.mp h
      have hsize : tempData.length = g.frame.data.length + 2 := by
        have hsame := length_of_arraycopy hcopy
        omega
      simp only [bytesToInt_datagram, getD_four_datagram, getD_five_datagram, Int.toNat_natCast,
        Int.toNat_natCast_add_one, isKeyFrame_datagram, hlength, set_set_end hsize] at hrest
      cases hrest
      refine ⟨fun hne => absurd rfl hne, fun o ho => ?_⟩
      rcases List.mem_cons.mp ho with rfl | ho
      · intro d hd
        cases hd
        exact ⟨_, rfl, by rw [List.length_take, hsize]; omega⟩
      · exact carriesTrailer_notice g o ho

theorem trailer_step {s s' : LoopState} {g : Fragment} {out : List LoopEvent} (hroomy : Roomy s)
    (h : receive s g = .ok (s', out)) : Roomy s' ∧ ∀ o ∈ out, CarriesTrailer g o := by
  have hreport : ∀ (t : LoopState) (r : LoopEvent), Roomy t → (∀ d, r ≠ .putData d) →
      Roomy t ∧ ∀ o ∈ [r], CarriesTrailer g o := by
    intro t r ht hr
    refine ⟨ht, fun o ho d hd => ?_⟩
    rw [List.mem_singleton.mp ho] at hd
    exact absurd hd (hr d)
  cases receive_outcome h with
  | skipped _ => exact ⟨hroomy, by simp⟩
  | whole _ hw =>
      refine ⟨fun hne => absurd rfl hne, fun o ho => ?_⟩
      rcases List.mem_cons.mp ho with rfl | ho
      · intro d hd
        cases hd
        exact ⟨g.frame.data, rfl, rfl⟩
      · exact carriesTrailer_notice g o ho
  | opened _ hw _ => exact ⟨roomy_opened hw, by simp⟩
  | appended happends hnext =>
      exact nextFragment_trailer (s := cleared s) hroomy happends.not_whole happends.same_length hnext
  | refused _ => exact hreport _ _ hroomy (by simp)
  | reported _ _ => exact hreport _ _ hroomy (by simp)
  | damaged _ _ _ => exact hreport _ _ hroomy (by simp)

/-- Whatever is lost, repeated or reordered, the loop gives only arrays with a trailer. -/
theorem puts_trailed (gs : List Fragment) :
    ∀ d ∈ puts (receiveLoop .initial (gs.map Fragment.datagram)),
      ∃ g ∈ gs, ∃ payload, Trailed g.frame payload d := by
  have hroomy : Roomy .initial := fun hne => absurd rfl hne
  have hmeets : Machine.Meets receive (fun _ _ g => g ∈ gs) [] .initial gs :=
    Machine.meets_of_mem fun g hg => hg
  have hrun := Machine.forall_mem_outputs (fun _ s => Roomy s)
    (fun o => ∃ g ∈ gs, CarriesTrailer g o)
    (by
      intro past s g s' out hroomy hg h
      obtain ⟨hroomy', hout⟩ := trailer_step hroomy h
      exact ⟨hroomy', fun o ho => ⟨g, hg, hout o ho⟩⟩)
    hroomy hmeets
  intro d hd
  rw [← outputs_receive, mem_puts] at hd
  obtain ⟨g, hg, hcarries⟩ := hrun _ hd
  exact ⟨g, hg, hcarries d rfl⟩

/-! ## Configuration -/

theorem sends_packet {data : List UInt8} (hfits : data.length ≤ LIMIT_DATA) (isPortrait : Bool)
    (flags count : ℤ) :
    arraycopy data 0 (header data.length isPortrait flags count) OFFSET data.length =
      .ok (packet data.length isPortrait flags count data) := by
  have hcopy := arraycopy_header data 0 data.length data.length isPortrait flags count
    (by omega) hfits
  rw [Nat.cast_zero] at hcopy
  simpa using hcopy

/-- A text or configuration array that the client manages to send fits into its datagram. -/
theorem sent_packet {data d : List UInt8} {isPortrait : Bool} {flags count : ℤ}
    (h : arraycopy data 0 (header data.length isPortrait flags count) OFFSET data.length = .ok d) :
    data.length ≤ LIMIT_DATA ∧ d = packet data.length isPortrait flags count data := by
  have hroom : (header data.length isPortrait flags count).length = OFFSET + LIMIT_DATA := by
    rw [header_eq, length_packet _ _ _ _ _ (by simp)]
  have hfits : data.length ≤ LIMIT_DATA := by
    by_contra hlong
    rw [arraycopy, if_pos (by rw [hroom]; omega)] at h
    cases h
  rw [sends_packet hfits] at h
  cases h
  exact ⟨hfits, rfl⟩

theorem clientInfo_packet {data : List UInt8} (hfits : data.length ≤ LIMIT_DATA)
    (isPortrait : Bool) (flags count : ℤ) :
    clientInfo (packet data.length isPortrait flags count data) = .ok data := by
  have hsmall : data.length < 2 ^ 31 := Nat.lt_of_le_of_lt hfits (by decide)
  rw [clientInfo, bytesToInt_packet _ _ _ _ _ (by omega) (by exact_mod_cast hsmall), if_neg]
  · rw [drop_packet, Int.toNat_natCast, List.take_left]
  · rw [length_packet _ _ _ _ _ hfits]
    push_cast
    omega

/-- The configuration array comes out as it went in, without a trailer. -/
theorem spsPps_packet {data : List UInt8} (hfits : data.length ≤ LIMIT_DATA)
    (isPortrait : Bool) (flags count : ℤ) :
    spsPps (packet data.length isPortrait flags count data) = .ok data := by
  have hsmall : data.length < 2 ^ 31 := Nat.lt_of_le_of_lt hfits (by decide)
  have hcopy : arraycopy (packet data.length isPortrait flags count data) OFFSET
      (List.replicate data.length 0) (0 : ℕ) data.length = .ok data := by
    rw [arraycopy_ok (by rw [length_packet _ _ _ _ _ hfits]; omega) (by simp), drop_packet,
      List.take_left]
    simp [blit]
  rw [Nat.cast_zero] at hcopy
  rw [spsPps, bytesToInt_packet _ _ _ _ _ (by omega) (by exact_mod_cast hsmall), newArray_natCast,
    ok_bind]
  exact hcopy

/-! ## The whole run -/

theorem outputs_serve_loop (s : LoopState) (datagrams : List (List UInt8)) :
    Machine.outputs serve (.loop s) datagrams = (receiveLoop s datagrams).map .loop := by
  induction datagrams generalizing s with
  | nil => rfl
  | cons data datagrams ih =>
      rw [receiveLoop]
      cases h : handleDatagram s data with
      | error e =>
          have hserve : serve (.loop s) data = .error e := by rw [serve, h, error_bind]
          rw [Machine.outputs_cons_of_error h, Machine.outputs_cons_of_error hserve]
          rfl
      | ok next =>
          have hserve : serve (.loop s) data = .ok (.loop next.1, next.2.map .loop) := by
            rw [serve, h, ok_bind]
            rfl
          rw [Machine.outputs_cons_of_ok h, Machine.outputs_cons_of_ok hserve, ih, List.map_append]
          rfl

theorem given_map_loop (events : List LoopEvent) : given (events.map .loop) = puts events := by
  rw [given, puts, List.filterMap_map]
  congr 1
  funext event
  cases event <;> rfl

/-- A run that gets its client information and both configuration arrays gives them raw and
every later array with the trailer of the frame it ends. -/
theorem given_configured {info a b d₀ d₁ d₂ : List UInt8} {p₀ p₁ p₂ : Bool}
    (h₀ : sendDataForUDP_Str info p₀ = .ok d₀) (h₁ : sendDataForUDP_Sps_Pps a p₁ = .ok d₁)
    (h₂ : sendDataForUDP_Sps_Pps b p₂ = .ok d₂) (rest : List (List UInt8)) :
    given (receiveDataForUDP (d₀ :: d₁ :: d₂ :: rest)) =
      a :: b :: puts (receiveLoop .initial rest) := by
  obtain ⟨hfits₀, rfl⟩ := sent_packet h₀
  obtain ⟨hfits₁, rfl⟩ := sent_packet h₁
  obtain ⟨hfits₂, rfl⟩ := sent_packet h₂
  rw [receiveDataForUDP,
    Machine.outputs_cons_of_ok (show serve .info _ = .ok (.firstConfig, [.setInfo info]) by
      rw [serve, clientInfo_packet hfits₀, ok_bind]; rfl),
    Machine.outputs_cons_of_ok (show serve .firstConfig _ = .ok (.secondConfig, [.putConfig a]) by
      rw [serve, spsPps_packet hfits₁, ok_bind]; rfl),
    Machine.outputs_cons_of_ok (show serve .secondConfig _ = .ok (.loop .initial, [.putConfig b]) by
      rw [serve, spsPps_packet hfits₂, ok_bind]; rfl),
    outputs_serve_loop, ← given_map_loop]
  rfl

/-- In every run the first two arrays are the configuration arrays, without a trailer; every
later one ends in the orientation and flags of a sent frame, and both drains and the decode
thread read those and the payload off it. -/
theorem given_arrays {info a b d₀ d₁ d₂ : List UInt8} {p₀ p₁ p₂ : Bool}
    (h₀ : sendDataForUDP_Str info p₀ = .ok d₀) (h₁ : sendDataForUDP_Sps_Pps a p₁ = .ok d₁)
    (h₂ : sendDataForUDP_Sps_Pps b p₂ = .ok d₂) (fs : List Frame) (gs : List Fragment)
    (hgs : ∀ g ∈ gs, g ∈ fragments fs) :
    ∃ arrays, given (receiveDataForUDP (d₀ :: d₁ :: d₂ :: gs.map Fragment.datagram)) =
        a :: b :: arrays ∧
      ∀ d ∈ arrays, ∃ f ∈ fs, ∃ payload, payload.length = f.data.length ∧
        d = payload ++ [orientation f.isPortrait, toByte f.flags] ∧
        (∀ isPortrait, PlayerActivity.feed isPortrait d =
          .ok (if isPortrait = f.isPortrait then some payload else none)) ∧
        MyJni.isKeyFrame d = .ok (toByte f.flags == BUFFER_FLAG_KEY_FRAME) ∧
        MyJni.hasKeyFlag d = .ok (decide (f.flags % 2 = 1)) := by
  refine ⟨_, given_configured h₀ h₁ h₂ _, fun d hd => ?_⟩
  obtain ⟨g, hg, payload, htrailed⟩ := puts_trailed gs d hd
  have hf : g.frame ∈ fs := (sent_of_mem_fragmentsFrom (hgs g hg)).2
  refine ⟨g.frame, hf, payload, htrailed.length, htrailed.bytes, feed_trailed htrailed, ?_, ?_⟩
  · rw [MyJni.isKeyFrame, flags_trailed htrailed, ok_bind]
    rfl
  · rw [MyJni.hasKeyFlag, flags_trailed htrailed, ok_bind, flagByte_and_one]
    rfl

/-- A key frame of one byte that also has a flag above the two the receiver knows. -/
def odd (flags : ℤ) : Frame where
  data := [7]
  isPortrait := true
  flags := flags
  length_lt := length_one_byte_lt

theorem fragments_odd (flags : ℤ) : fragments [odd flags] = [⟨0, odd flags, 1⟩] := by
  have hcount : fragmentCount (odd flags) = 1 := if_pos (by simp [odd, LIMIT_DATA, LIMIT, OFFSET])
  simp [fragments, fragmentsFrom, fragmentsOf, hcount]

theorem puts_odd (flags : ℤ) :
    puts (receiveLoop .initial ([Fragment.mk 0 (odd flags) 1].map Fragment.datagram)) =
      [[7, 1, toByte flags]] := by
  have hw : (Fragment.mk 0 (odd flags) 1).Whole := by
    simp [Fragment.Whole, odd, LIMIT_DATA, LIMIT, OFFSET]
  rw [← outputs_receive, Machine.outputs_cons_of_ok (receive_whole (Or.inl rfl) hw),
    Machine.outputs_nil, List.append_nil, puts_arrived]
  rfl

theorem given_arrays_odd : ∃ d₀ d₁ d₂ arrays,
    given (receiveDataForUDP (d₀ :: d₁ :: d₂ :: (fragments [odd 1]).map Fragment.datagram)) =
        [0, 0, 0, 1, 103, 66] :: [0, 0, 0, 1, 104] :: arrays ∧
      ∀ d ∈ arrays, ∃ f ∈ [odd 1], ∃ payload, payload.length = f.data.length ∧
        d = payload ++ [orientation f.isPortrait, toByte f.flags] ∧
        (∀ isPortrait, PlayerActivity.feed isPortrait d =
          .ok (if isPortrait = f.isPortrait then some payload else none)) ∧
        MyJni.isKeyFrame d = .ok (toByte f.flags == BUFFER_FLAG_KEY_FRAME) ∧
        MyJni.hasKeyFlag d = .ok (decide (f.flags % 2 = 1)) :=
  ⟨_, _, _, @given_arrays [65] _ _ _ _ _ _ _ _ (sends_packet (by decide) true _ _)
    (sends_packet (by decide) true _ _) (sends_packet (by decide) false _ _) [odd 1]
    (fragments [odd 1]) (fun _ hg => hg)⟩

/-- A configuration array has no trailer, and `drainFrame()` does not see a key frame that
has a further flag. -/
theorem config_without_trailer :
    (¬ ∀ (info a b d₀ d₁ d₂ : List UInt8) (p₀ p₁ p₂ : Bool) (fs : List Frame)
      (gs : List Fragment), sendDataForUDP_Str info p₀ = .ok d₀ →
        sendDataForUDP_Sps_Pps a p₁ = .ok d₁ → sendDataForUDP_Sps_Pps b p₂ = .ok d₂ →
        gs.Sublist (fragments fs) →
        ∀ d ∈ given (receiveDataForUDP (d₀ :: d₁ :: d₂ :: gs.map Fragment.datagram)),
          ∃ payload mark flags, (mark = 1 ∨ mark = 2) ∧ d = payload ++ [mark, flags]) ∧
    ¬ ∀ (info a b d₀ d₁ d₂ : List UInt8) (p₀ p₁ p₂ : Bool) (f : Frame),
      sendDataForUDP_Str info p₀ = .ok d₀ → sendDataForUDP_Sps_Pps a p₁ = .ok d₁ →
        sendDataForUDP_Sps_Pps b p₂ = .ok d₂ →
        ∀ d ∈ (given (receiveDataForUDP
          (d₀ :: d₁ :: d₂ :: (fragments [f]).map Fragment.datagram))).drop 2,
          MyJni.isKeyFrame d = .ok (decide (f.flags % 2 = 1)) := by
  have hinfo := @sends_packet [65] (by decide) true 10 60010
  have hsps := @sends_packet [0, 0, 0, 1, 103, 66] (by decide) true
    BUFFER_FLAG_CODEC_CONFIG 60020
  have hpps := @sends_packet [0, 0, 0, 1, 104] (by decide) false
    BUFFER_FLAG_CODEC_CONFIG 60030
  constructor
  · intro h
    obtain ⟨payload, mark, flags, hmark, hd⟩ := h _ _ _ _ _ _ true true false [] [] hinfo hsps hpps
      (List.Sublist.refl _) [0, 0, 0, 1, 103, 66] (by
        rw [@given_configured _ _ _ _ _ _ true true false hinfo hsps hpps]
        exact List.mem_cons_self)
    have hlast := @List.append_inj_right' _ [0, 0, 0, 1] [103, 66] _ _ hd rfl
    simp only [List.cons.injEq] at hlast
    rw [← hlast.1] at hmark
    exact absurd hmark (by decide)
  · intro h
    have hseen := h _ _ _ _ _ _ true true false (odd 9) hinfo hsps hpps [7, 1, 9] (by
      rw [@given_configured _ _ _ _ _ _ true true false hinfo hsps hpps, fragments_odd, puts_odd]
      exact List.mem_singleton_self _)
    exact absurd hseen (by decide +kernel)

end MirrorCast.Udp
