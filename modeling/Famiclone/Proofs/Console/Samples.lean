import Famiclone.Proofs.Console.Feed
import Famiclone.Proofs.Console.Playing

/-!
# Samples come in time

A byte that the sample channel wants is fetched before the next read of the processor, and every step
begins with a read. So a byte waits for nine accesses at most before it is fetched, unless a transfer of
sprites goes first, which is served whole. The deadline of the channel leaves room for both at every rate
but the fastest.
-/
namespace Famiclone

namespace Feed

/-- The channel is built for the region, and no byte has been wanted for longer than a number of
cycles. -/
structure Supplied (w : Nat) (f : Feed) : Prop where
  deltaRegion : f.delta.region = f.region
  supply : Supply.Supplied w f.delta f.supply

variable {w : Nat} {f : Feed}

theorem Supplied.mono {v : Nat} (h : f.Supplied v) (le : v ≤ w) : f.Supplied w :=
  { h with supply := h.supply.mono le }

theorem Supplied.tick (h : f.Supplied w) (soon : f.supply.InTime w) : f.tick.Supplied (w + 1) where
  deltaRegion := (Delta.clockTimer_region f.delta).trans h.deltaRegion
  supply := h.supply.clock soon

theorem Supplied.tick_of_none (h : f.Supplied w) (content : f.delta.request = none) :
    f.tick.Supplied 0 where
  deltaRegion := (Delta.clockTimer_region f.delta).trans h.deltaRegion
  supply := h.supply.clock_of_none content

/-- A write asks for no byte before its cycle passes. -/
theorem Supplied.write (h : f.Supplied w) (address : UInt16) (value : UInt8) :
    (f.write address value).Supplied w where
  deltaRegion := (Delta.writeAt_region _ _ _).trans h.deltaRegion
  supply := h.supply.write address value

theorem Supplied.transfer (h : f.Supplied w) : f.transfer.Supplied w :=
  ⟨h.deltaRegion, h.supply.transfer⟩

theorem Supplied.fill (h : f.Supplied w) (value : UInt8) : (f.fill value).Supplied 0 :=
  ⟨(Delta.fill_region _ _).trans h.deltaRegion, h.supply.fill value⟩

end Feed

/-! ## The mainboard -/

namespace Mainboard

/-- The reset line disables the channel. -/
theorem reset_supplied {m : Mainboard} {w : Nat} (h : m.feed.Supplied w) : m.reset.feed.Supplied 0 :=
  ⟨h.deltaRegion, h.supply.reset⟩

theorem supplied_of_initial {m : Mainboard} (region : Region) (audio : AudioSettings)
    (sound : m.sound = .initial region audio) (supply : m.supply = .initial) :
    m.feed.Supplied 0 := by
  unfold feed
  rw [sound, supply]
  exact ⟨rfl, .initial region⟩

/-- At power-on the sound unit keeps its region. -/
theorem powerOn_supplied (m : Mainboard) : m.powerOn.feed.Supplied 0 :=
  supplied_of_initial m.sound.region m.sound.sampler.settings rfl rfl

end Mainboard

/-! ## While the processor is halted -/

/-- A number of cycles after an access at which a byte has been wanted for nine cycles at most. More than
390 such cycles are those of a transfer of sprites. -/
structure Feed.Held (limit k : Nat) (f : Feed) : Prop where
  room : k ≤ limit
  supplied : f.Supplied (9 + k)
  sprites : limit ≤ 390 ∨ limit ≤ 518 ∧ ∃ ago, f.supply.sprites = some ago ∧ ago ≤ k

theorem Feed.Held.tick {limit k : Nat} {f : Feed} (h : f.Held limit k) (room : k < limit) :
    f.tick.Held limit (k + 1) where
  room := room
  supplied := by
    refine h.supplied.tick ?_
    rcases h.sprites with short | ⟨long, ago, sprites, le⟩
    · exact .inl (by omega)
    · exact .inr ⟨by omega, ago, sprites, by omega⟩
  sprites := by
    rcases h.sprites with short | ⟨long, ago, sprites, le⟩
    · exact .inl short
    · refine .inr ⟨long, ago + 1, ?_, Nat.succ_le_succ le⟩
      simp [Feed.tick, sprites]

namespace Machine

/-- A number of cycles at most, for which a byte can wait. -/
def Holding (limit k : Nat) (m n : Machine Mainboard) : Prop :=
  ∀ j, j + k ≤ limit → m.bus.feed.Held limit j → n.bus.feed.Held limit (j + k)

theorem holding_idling (limit : Nat) : Idling (Holding limit) where
  refl m j room h := h
  trans first second j room h := by
    have next := second _ (by omega) (first j (by omega) h)
    rwa [Nat.add_assoc] at next
  spare {k m n} h j room held := by
    have now := h j (by omega) held
    refine ⟨room, now.supplied.mono (by omega), now.sprites.imp id ?_⟩
    rintro ⟨long, ago, sprites, le⟩
    exact ⟨long, ago, sprites, by omega⟩
  read m address j room h := by
    have passed : (Exec.cycleRead address m).2.bus.feed = m.bus.feed.tick :=
      m.bus.read_feed address
    rw [passed]
    exact h.tick room
  sprite m value j room h := by
    have other : m.bus.feed.write Exec.spriteData value = m.bus.feed :=
      m.bus.feed.write_other value (by decide) (by decide)
    have passed : (Exec.write Exec.spriteData value m).2.bus.feed =
        (m.bus.feed.write Exec.spriteData value).tick := m.bus.write_feed Exec.spriteData value
    rw [passed, other]
    exact h.tick room
  deliver m value j room h :=
    ⟨h.room, (h.supplied.fill value).mono (Nat.zero_le _), h.sprites⟩

/-- A machine whose sample channel no byte has been wanted for longer than a number of cycles. -/
def Supplied (w : Nat) (m : Machine Mainboard) : Prop := m.bus.feed.Supplied w

/-- The transfers that go before a read, a transfer of sprites among them, come in time. -/
theorem Supplied.served {m : Machine Mainboard} (h : m.Supplied 9) {n : Machine Mainboard}
    (idle : ∀ {R}, Idling R → R (514 * m.bus.spritePage.isSome.toNat + 4) (Exec.taken m) n) :
    ∃ w, n.Supplied w := by
  cases page : m.bus.spritePage with
  | none =>
    have held := idle (holding_idling 390) 0
    simp only [page, Exec.taken_of_none page] at held
    exact ⟨_, (held (by decide) ⟨by decide, h, .inl (Nat.le_refl _)⟩).supplied⟩
  | some first =>
    have held := idle (holding_idling 518) 0
    have begun : (Exec.taken m).bus.feed = m.bus.feed.transfer := Mainboard.takeTransfer_feed page
    simp only [page, begun] at held
    exact ⟨_, (held (Nat.le_refl 518) ⟨by decide, Feed.Supplied.transfer h,
      .inr ⟨Nat.le_refl _, 0, rfl, Nat.le_refl _⟩⟩).supplied⟩

/-- Behind a read nothing has been wanted for long. -/
theorem Supplied.read {m : Machine Mainboard} (h : m.Supplied 9) (address : UInt16) :
    (Exec.read address m).2.Supplied 0 := by
  obtain ⟨_, _, _, content, idle⟩ := Exec.serves_inTurn address m
  obtain ⟨w, served⟩ := h.served idle
  have passed : (Exec.read address m).2.bus.feed = (Exec.serveAll address 2 m).2.bus.feed.tick :=
    Mainboard.read_feed _ address
  unfold Supplied
  rw [passed]
  exact Feed.Supplied.tick_of_none served content

theorem Supplied.write {w : Nat} {m : Machine Mainboard} (h : m.Supplied w) (soon : w < 399)
    (address : UInt16) (value : UInt8) : (Exec.write address value m).2.Supplied (w + 1) := by
  have passed : (Exec.write address value m).2.bus.feed = (m.bus.feed.write address value).tick :=
    m.bus.write_feed address value
  unfold Supplied
  rw [passed]
  exact (Feed.Supplied.write h address value).tick (.inl soon)

/-- Accesses at each of which a byte has been wanted for nine cycles at most. -/
def Attends (k : Nat) (m n : Machine Mainboard) : Prop :=
  ∀ w, w + k ≤ 9 → m.Supplied w → n.Supplied (w + k)

theorem attends_metered : MeteredSteps Attends where
  refl m w _ h := h
  trans first second w room h := by
    have next := second _ (by omega) (first w (by omega) h)
    rwa [Nat.add_assoc] at next
  read m address w room h := by
    have fresh := Supplied.read (h.mono (by omega)) address
    exact fresh.mono (Nat.zero_le _)
  push m value w room h := h.write (by omega) _ value
  registers m f w _ h := h
  vector m value w room h := by
    have same : (Exec.takeVector m).2.Supplied w := by
      unfold Supplied
      rw [Exec.takeVector_bus]
      exact h
    exact same.write (by omega) _ value
  poll m w _ h := h
  settle m w _ h := h
  jam m w _ h := h

/-- Every step begins with a read, so no byte waits for more than the accesses behind it. -/
theorem Supplied.step {m : Machine Mainboard} (h : m.Supplied 9) :
    (Exec.step m).2.Supplied 9 := by
  have closing := attends_metered.closing fun m address value w room h =>
    h.write (by omega) address value
  obtain ⟨address, k, few, rest⟩ := attends_metered.step_behind_read closing m
  have behind := rest 0 (by omega) (h.read address)
  exact behind.mono (by omega)

/-- The reset sequence is short enough. -/
theorem Supplied.reset {m : Machine Mainboard} (h : m.Supplied 0) : (Exec.reset m).2.Supplied 9 := by
  have behind := attends_metered.reset_at m 0 (by decide) h
  exact behind.mono (by decide)

theorem Supplied.powerOn {m : Machine Mainboard} (h : m.Supplied 0) :
    (Exec.powerOn m).2.Supplied 9 := by
  rw [Exec.powerOn_eq]
  exact Supplied.reset h

theorem supplied_enduring : Enduring (Supplied 9) where
  step _ h := h.step
  reset _ h := Supplied.reset (Mainboard.reset_supplied h)
  taken _ h := h
  heard _ h := h
  moved _ _ h := h

end Machine

namespace Console

theorem supplied_lasting : Machine.Lasting (Machine.Supplied 9) where
  toEnduring := Machine.supplied_enduring
  slot _ _ h := h
  audio _ _ h := h
  strict _ _ h := h
  region m region _ :=
    (Mainboard.supplied_of_initial region m.bus.sound.sampler.settings rfl rfl).mono (Nat.zero_le 9)
  power c _ := by
    have started := c.machine.bus.powerOn_supplied
    unfold powerOn
    dsimp only
    exact Machine.Supplied.powerOn started

theorem build_supplied (settings : Settings) (kind : PictureKind) (profile : MemoryProfile) :
    (build settings kind profile).machine.Supplied 9 :=
  (Mainboard.supplied_of_initial _ settings.audio rfl rfl).mono (Nat.zero_le 9)

end Console

end Famiclone
