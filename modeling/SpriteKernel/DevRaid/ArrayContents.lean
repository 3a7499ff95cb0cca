import SpriteKernel.DevRaid.ReconstructRun

/- What an array holds while a disk of it is reconstructed: a plain disk, which the other disks' units stand for. -/
namespace SpriteKernel.DevRaid.Initiate

open Striping Parity Finset BlockRequest Params

/-- A byte of a unit, by the disks that are not reconstructed. -/
def contents (p : Params) (col : Nat) (disks : Disks) (k u o : Nat) : Byte :=
  if (p.unitPlace k u).col = col then others p.numDataCol (fun v => unitByte p disks k v o) u else unitByte p disks k u o

/-- A byte of sector `q` of stripe `k` after an event: only a write that is done without a failure changes it. -/
def Event.applied (p : Params) (disks : Disks) (k q i : Nat) (old : Byte) : Event → Byte
  | .write k' f t address mem outs =>
    if k = k' ∧ f ≤ q ∧ q < t ∧ (writeStripe p k' f t address mem disks outs).status = .done 0 then
      mem .user (p.sectorToByte (q - f) + i)
    else old
  | _ => old

section
variable {p : Params} {col row : Nat} {s t : Rebuild} {e : Event} {events : List Event} {disks disks' : Disks} {k u o : Nat}

theorem contents_congr (hu : u ≤ p.numDataCol)
    (hsame : ∀ v ≤ p.numDataCol, (p.unitPlace k v).col ≠ col → unitByte p disks' k v o = unitByte p disks k v o) :
    contents p col disks' k u o = contents p col disks k u o := by
  rw [contents, contents]
  split
  · next hat => exact others_congr fun v hv hne => hsame v hv fun hv' => hne (unitPlace_injective hv hu (hv'.trans hat.symm))
  · next hne => exact hsame u hu hne

theorem contents_row (hu : u ≤ p.numDataCol) (hk : k % p.geometry.numRow = row)
    (hsame : ∀ c, c ≠ col → (disks' c row).data = (disks c row).data) :
    contents p col disks' k u o = contents p col disks k u o := by
  refine contents_congr hu fun v _ hne => ?_
  rw [unitByte_eq, unitByte_eq, unitPlace_row, hk, hsame _ hne]

/-- A stripe that is not locked is read as the disk it stands for. -/
theorem Inv.logical_eq (h : Inv p col row s) (hcol : col < p.geometry.numCol) (hk : k % p.geometry.numRow = row)
    (hunits : p.height k < p.geometry.units) (hlocked : s.control.locked ≠ some k) (hu : u ≤ p.numDataCol)
    (ho : o < p.bytesPerStripeUnit) : logical p s.disks k u o = contents p col s.disks k u o := by
  obtain ⟨d, hon⟩ := exists_onDisk hcol hk
  rw [contents]
  split
  · next hat =>
    obtain rfl := unitPlace_injective hu hon.le (hat.trans hon.col_eq.symm)
    rw [logical]
    split
    · next hvalid => exact h.unit hon (hon.valid_iff.1 hvalid) hlocked o ho
    · rfl
  · next hne => exact if_pos (h.others.unit hon hunits u hu fun hud => hne (hud ▸ hon.col_eq))

/-- The reconstruction writes on its own disk only. -/
theorem Inv.step_others (h : Inv p col row s) (hcol : col < p.geometry.numCol) (hrow : row < p.geometry.numRow) (out : Outcome)
    {c : Nat} (hne : c ≠ col) : (s.step p col row out).disks c row = s.disks c row := by
  have hwaits := h.waits
  rw [Waits] at hwaits
  rw [Rebuild.step]
  cases hphase : s.control.phase with
  | next =>
    rcases h.initiate_cases hcol hrow with ⟨-, heq⟩ | ⟨-, heq⟩ | ⟨-, -, hdisks, -⟩
    · exact congrArg (·.disks c row) heq
    · exact congrArg (·.disks c row) heq
    · exact congrFun (congrFun hdisks c) row
  | reading =>
    rw [hphase] at hwaits
    obtain ⟨d, hd⟩ := hwaits
    obtain ⟨-, -, ⟨-, -, hdisks⟩ | ⟨-, -, -, hdisks, -⟩⟩ := hd.cases rfl
    · exact congrFun (congrFun hdisks c) row
    · exact (congrFun (congrFun hdisks c) row).trans (raise_other hne)
  | writing =>
    rw [hphase] at hwaits
    obtain ⟨d, hd⟩ := hwaits
    have hsame := (hd.transferred out).2 c hne
    obtain ⟨-, -, ⟨-, -, hdisks⟩ | ⟨-, -, -, hdisks⟩⟩ := h.write_cases hcol hd rfl
    · exact (congrFun (congrFun hdisks c) row).trans hsame
    · exact (congrFun (congrFun hdisks c) row).trans ((save_other hne).trans hsame)
  | done b => rfl

/-- A write changes the contents as it is to do, or not at all. -/
theorem Inv.write_applied (h : Inv p col row s) (hcol : col < p.geometry.numCol) {f n k' : Nat} (hgo : MayGo p s k' f n)
    {address : Buf → Int} {mem : Mem} {outs : List Outcome} (houts : ∀ out ∈ outs, out.Alone ∧ out.WritesFailAt col row)
    (hk : k % p.geometry.numRow = row) (hu : u < p.numDataCol) {q i : Nat} (hq : q < p.sectorsPerStripeUnit)
    (hi : i < p.bytesPerSector) :
    contents p col (writeStripe p k' f n address mem s.disks outs).disks k u (p.sectorToByte q + i) =
      (Event.write k' f n address mem outs).applied p s.disks k (u * p.sectorsPerStripeUnit + q) i
        (contents p col s.disks k u (p.sectorToByte q + i)) := by
  obtain ⟨ho, hsector⟩ := byte_of_sector p hq hi
  have hu' := Nat.le_of_lt hu
  rw [Event.applied]
  by_cases hk' : k' % p.geometry.numRow = row
  · obtain ⟨d, hon⟩ := exists_onDisk hcol hk'
    rcases h.writeStripe_sound hon hgo houts with ⟨hdone, hwritten⟩ | ⟨hnot, hdisks⟩
    · by_cases heq : k = k'
      · subst heq
        rw [← (h.write hcol hgo houts).logical_eq hcol hk hgo.stripe hgo.unlocked hu' ho,
          ← h.logical_eq hcol hk hgo.stripe hgo.unlocked hu' ho]
        refine (hwritten.logical_eq hu' ho).trans ?_
        rw [new_data_eq hu, Task.newData, Parity.written, hsector]
        split
        · next hw => exact (congrArg (mem .user) (buffer_offset p hw.1 i)).trans (if_pos ⟨rfl, hw.1, hw.2, hdone⟩).symm
        · next hw => exact (if_neg fun hin => hw ⟨hin.2.1, hin.2.2.1⟩).symm
      · rw [if_neg fun hin => heq hin.1]
        exact contents_congr hu' fun v hv _ => (Beside.of_written hon hwritten).byte_eq hk (height_ne hk' hk heq) v hv _ ho
    · rw [if_neg fun hin => hnot hin.2.2.2]
      refine contents_row hu' hk fun c _ => ?_
      rcases hdisks with hsame | hfailed
      · rw [hsame]
        rfl
      · rw [hfailed]
        exact failUnit_data _ _ _ _ _
  · have hne : k ≠ k' := fun heq => hk' (heq ▸ hk)
    rw [if_neg fun hin => hne hin.1]
    exact contents_row hu' hk fun c _ => congrArg Disk.data (hgo.write_row (fun out hmem => (houts out hmem).1) hk' c)

end

end SpriteKernel.DevRaid.Initiate
