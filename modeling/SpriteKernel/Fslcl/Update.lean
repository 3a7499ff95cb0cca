import SpriteKernel.Fslcl.Search

/- What inserting and deleting leaves of the records. -/
namespace SpriteKernel.Fslcl

open List
open Bytes

variable {b c : Buffer} {pre old new post : List Int} {p q x y r : Int} {component : Name} {number : Int}

theorem Tiled.replace (hpre : Tiled b pre p x) (hpost : Tiled b post y q)
    (hc : ∀ k, k < x ∨ y ≤ k → c k = b k) (hnew : Tiled c new x y) :
    Tiled c (pre ++ (new ++ post)) p q ∧
      entries c (pre ++ (new ++ post)) = entries b pre ++ (entries c new ++ entries b post) := by
  obtain ⟨h1, e1⟩ := hpre.congr (c := c) fun k _ h2 => hc k (.inl h2)
  obtain ⟨h2, e2⟩ := hpost.congr (c := c) fun k h1 _ => hc k (.inr h1)
  refine ⟨Tiled.append.2 ⟨x, h1, Tiled.append.2 ⟨y, hnew, h2⟩⟩, ?_⟩
  rw [← e1, ← e2]
  simp only [entries, filterMap_append]

theorem bytesFrom_succ (b : Buffer) (i : Int) (n : Nat) : bytesFrom b i (n + 1) = bytesFrom b i n ++ [b (i + n)] := by
  simp [bytesFrom, range_succ]

/-- A name that can be in a record: not empty, and without NUL. -/
def Plain (component : Name) : Prop := component ≠ [] ∧ ∀ c ∈ component, c ≠ 0

theorem record_of (hnum : fileNumber b p = number) (h0 : number ≠ 0) (hname : nameLength b p = component.length)
    (hbytes : bytesFrom b (p + 8) component.length = component) (hnul : b (p + 8 + component.length) = 0)
    (hplain : Plain component) (hroom : dirRecLength component.length ≤ recordLength b p)
    (hin : p % dirBlockSize + recordLength b p ≤ dirBlockSize) : Record b p ∧ view b p = some (component, number) := by
  have h9 := (le_dirRecLength (n := component.length) (Int.natCast_nonneg _)).1
  have hpos : 1 ≤ (component.length : Int) := Int.ofNat_le.2 (length_pos_iff.2 hplain.1)
  have h8 : 8 ≤ dirRecLength component.length := by omega
  refine ⟨⟨Int.le_trans h8 hroom, hin, fun _ => ?_, fun _ => ?_, fun _ => ?_, fun _ => ?_⟩, ?_⟩
  · rw [hname]
    exact hpos
  · rw [hname]
    exact hroom
  · rw [hname]
    exact hnul
  · rw [hname, Int.toNat_natCast, hbytes]
    exact hplain.2
  · unfold view
    rw [hnum, if_pos h0, hname, Int.toNat_natCast, hbytes]

theorem fillSlot_record (hplain : Plain component) (hroom : dirRecLength component.length ≤ recordLength b p)
    (hin : p % dirBlockSize + recordLength b p ≤ dirBlockSize) (h0 : number ≠ 0)
    (hlo : -2147483648 ≤ number) (hhi : number < 2147483648) :
    recordLength (fillSlot b p component number) p = recordLength b p ∧ Record (fillSlot b p component number) p ∧
      view (fillSlot b p component number) p = some (component, number) ∧
      ∀ k, k < p ∨ p + recordLength b p ≤ k → fillSlot b p component number k = b k := by
  have hd := (le_dirRecLength (n := component.length) (by omega)).1
  have hsmall : (component.length : Int) < 32768 := by
    simp only [dirBlockSize] at hin
    omega
  have hnum : fileNumber (fillSlot b p component number) p = number := by
    have : fileNumber (fillSlot b p component number) p = int (setInt p number b) p := by
      apply int_congr
      intro k h1 h2
      unfold fillSlot
      rw [setBytes_of_outside (by omega), setShort_of_outside (by omega)]
    rw [this]
    exact int_setInt_self hlo hhi p b
  have hrec : recordLength (fillSlot b p component number) p = recordLength b p := by
    apply short_congr
    intro k h1 h2
    unfold fillSlot
    rw [setBytes_of_outside (by omega), setShort_of_outside (by omega), setInt_of_outside (by omega)]
  have hname : nameLength (fillSlot b p component number) p = component.length := by
    have : nameLength (fillSlot b p component number) p =
        short (setShort (p + 6) component.length (setInt p number b)) (p + 6) := by
      apply short_congr
      intro k h1 h2
      unfold fillSlot
      rw [setBytes_of_outside (by omega)]
    rw [this]
    exact short_setShort_self (by omega) hsmall _ _
  have hbytes : bytesFrom (fillSlot b p component number) (p + 8) component.length = component ∧
      fillSlot b p component number (p + 8 + component.length) = 0 := by
    have h : bytesFrom (fillSlot b p component number) (p + 8) (component ++ [0]).length = component ++ [0] := by
      exact bytesFrom_setBytes_self _ _ _
    rw [length_append, length_singleton, bytesFrom_succ] at h
    obtain ⟨h1, h2⟩ := append_inj' h rfl
    exact ⟨h1, singleton_inj.1 h2⟩
  have hrecord := record_of hnum h0 hname hbytes.1 hbytes.2 hplain (by rw [hrec]; exact hroom) (by rw [hrec]; exact hin)
  refine ⟨hrec, hrecord.1, hrecord.2, ?_⟩
  · intro k hk
    unfold fillSlot
    rw [setBytes_of_outside, setShort_of_outside (by omega), setInt_of_outside (by omega)]
    simp only [length_append, length_singleton]
    omega

/-- A record is split: the first part is as it was, the second has the length that is left. -/
theorem splitSlot_record (hr : Record b p) (hu : fileNumber b p ≠ 0)
    (hroom : 8 ≤ recordLength b p - dirRecLength (nameLength b p)) (hsplit : splitSlot b p = (c, q)) :
    q = p + recordLength c p ∧ recordLength c q = recordLength b p - dirRecLength (nameLength b p) ∧
      recordLength c p = dirRecLength (nameLength b p) ∧ Record c p ∧ view c p = view b p ∧
      ∀ k, k < p ∨ p + recordLength b p ≤ k → c k = b k := by
  have hn := hr.named hu
  have hin := hr.inside
  have hd := le_dirRecLength (n := nameLength b p) (by omega)
  obtain ⟨len, hlen⟩ : ∃ len, len = dirRecLength (nameLength b p) := ⟨_, rfl⟩
  simp only [splitSlot, if_pos hu, ← hlen, Prod.mk.injEq] at hsplit
  obtain ⟨hb, hq⟩ := hsplit
  simp only [dirBlockSize] at hin
  have hrec : recordLength c p = len := by
    rw [← hb]
    exact short_setShort_self (by omega) (by omega) _ _
  have hrest : recordLength c q = recordLength b p - len := by
    have : recordLength c q = short (setShort (p + len + 4) (recordLength b p - len) b) (p + len + 4) := by
      rw [← hq]
      apply short_congr
      intro k h1 h2
      rw [← hb, setShort_of_outside (by omega)]
    rw [this]
    exact short_setShort_self (by omega) (by omega) _ _
  have hother : ∀ k, k < p + 4 ∨ p + 6 ≤ k → k < p + len + 4 ∨ p + len + 6 ≤ k → c k = b k := by
    intro k h1 h2
    rw [← hb, setShort_of_outside (by omega), setShort_of_outside (by omega)]
  -- all arithmetic before the fields are named: they are terms that had better stay closed
  have hhead : ∀ k, p ≤ k → k < p + 4 → c k = b k := fun k h1 h2 => hother k (by omega) (by omega)
  have hlength : ∀ k, p + 6 ≤ k → k < p + 6 + 2 → c k = b k := fun k h1 h2 => hother k (by omega) (by omega)
  have hchars : ∀ k, p + 8 ≤ k → k < p + 8 + (nameLength b p).toNat → c k = b k := by
    intro k h1 h2
    rw [Int.toNat_of_nonneg (Int.le_trans (by decide) hn)] at h2
    exact hother k (by omega) (by omega)
  have hnul : c (p + 8 + nameLength b p) = b (p + 8 + nameLength b p) := hother _ (by omega) (by omega)
  have hout : ∀ k, k < p ∨ p + recordLength b p ≤ k → c k = b k := fun k hk => hother k (by omega) (by omega)
  have h8 : 8 ≤ len := by omega
  have hinside : p % dirBlockSize + len ≤ dirBlockSize := by
    simp only [dirBlockSize]
    omega
  have hnum : fileNumber c p = fileNumber b p := int_congr hhead
  have hname : nameLength c p = nameLength b p := short_congr hlength
  have hbytes : bytesFrom c (p + 8) (nameLength b p).toNat = bytesFrom b (p + 8) (nameLength b p).toNat :=
    bytesFrom_congr hchars
  rw [hrec, hrest, ← hlen]
  refine ⟨hq.symm, rfl, rfl, ⟨?_, ?_, ?_, ?_, ?_, ?_⟩, ?_, hout⟩
  · rw [hrec]
    exact h8
  · rw [hrec]
    exact hinside
  · rw [hname, hnum]
    exact hr.named
  · rw [hname, hrec, hlen]
    exact fun _ => Int.le_refl _
  · intro _
    rw [hname, hnul]
    exact hr.nul hu
  · intro _
    rw [hname, hbytes]
    exact hr.chars hu
  · unfold view
    rw [hnum, hname, hbytes]

theorem splitSlot_free (h : fileNumber b p = 0) : splitSlot b p = (b, p) := by
  unfold splitSlot
  rw [if_neg fun hn => hn h]

theorem rest_inside {len part rest : Int} (h : p % dirBlockSize + len ≤ dirBlockSize) (hpart : 0 ≤ part)
    (hlen : rest = len - part) : (p + part) % dirBlockSize + rest ≤ dirBlockSize := by
  simp only [dirBlockSize] at *
  omega

theorem fill_tiled (hr : Record b r) (hplain : Plain component) (hroom : dirRecLength component.length ≤ recordLength b r)
    (h0 : number ≠ 0) (hlo : -2147483648 ≤ number) (hhi : number < 2147483648) :
    Tiled (fillSlot b r component number) [r] r (r + recordLength b r) ∧
      entries (fillSlot b r component number) [r] = [(component, number)] ∧
      ∀ k, k < r ∨ r + recordLength b r ≤ k → fillSlot b r component number k = b k := by
  obtain ⟨hlen, hrec, hview, hout⟩ := fillSlot_record hplain hroom hr.inside h0 hlo hhi
  refine ⟨⟨rfl, hrec, by rw [hlen]; rfl⟩, ?_, hout⟩
  unfold entries
  rw [filterMap_cons, hview, filterMap_nil]

theorem split_tiled (hr : Record b r) (hu : fileNumber b r ≠ 0) (hplain : Plain component)
    (hroom : dirRecLength component.length ≤ recordLength b r - dirRecLength (nameLength b r))
    (h0 : number ≠ 0) (hlo : -2147483648 ≤ number) (hhi : number < 2147483648) (hsplit : splitSlot b r = (c, q)) :
    Tiled (fillSlot c q component number) [r, q] r (r + recordLength b r) ∧
      entries (fillSlot c q component number) [r, q] = entries b [r] ++ [(component, number)] ∧
      ∀ k, k < r ∨ r + recordLength b r ≤ k → fillSlot c q component number k = b k := by
  have hneed := (le_dirRecLength (n := component.length) (Int.natCast_nonneg _)).1
  have hkeep := (le_dirRecLength (Int.le_trans (by decide) (hr.named hu))).1
  have hpos : 8 ≤ recordLength b r - dirRecLength (nameLength b r) := by omega
  obtain ⟨hq, hrest, hfirst, hrec, hview, hout⟩ := splitSlot_record hr hu hpos hsplit
  have hin : q % dirBlockSize + recordLength c q ≤ dirBlockSize := by
    rw [hrest, hq, hfirst]
    apply rest_inside hr.inside
    · exact Int.le_trans (Int.add_nonneg (by decide) (Int.le_trans (by decide) (hr.named hu))) hkeep
    · rfl
  have hend : q + recordLength c q = r + recordLength b r := by
    omega
  have hqr : r ≤ q := by
    rw [hq]
    exact Int.le_add_of_nonneg_right (Int.le_trans (by decide) hrec.header)
  obtain ⟨hlen, hrec', hview', hout'⟩ := fillSlot_record (b := c) (p := q) hplain (hrest ▸ hroom) hin h0 hlo hhi
  generalize fillSlot c q component number = e at hlen hrec' hview' hout'
  obtain ⟨-, hlen₁, hview₁, hrec₁⟩ := hrec.congr (c := e) fun k _ h2 => hout' k (.inl (by rw [hq]; exact h2))
  have hat : r + recordLength e r = q := by
    rw [hlen₁]
    exact hq.symm
  refine ⟨⟨rfl, hrec₁, ?_⟩, ?_, ?_⟩
  · rw [hat]
    exact ⟨rfl, hrec', by rw [hlen, hend]; rfl⟩
  · unfold entries
    rw [filterMap_cons, hview₁, hview, filterMap_cons, hview', filterMap_cons, filterMap_nil]
    cases view b r <;> rfl
  · intro k hk
    rw [hout' k ?_]
    · exact hout k hk
    · rcases hk with hk | hk
      · exact .inl (Int.lt_of_lt_of_le hk hqr)
      · exact .inr (hend ▸ hk)

theorem lt_end {n need len k t : Int} (hd : 9 + n ≤ need) (hroom : need ≤ len) (hk : k ≤ t + 8 + n) : k < t + len := by
  omega

theorem deleted_record (hr : Record b r) (hc : c = setInt r 0 b) :
    recordLength c r = recordLength b r ∧ Record c r ∧ view c r = none ∧
      ∀ k, k < r ∨ r + recordLength b r ≤ k → c k = b k := by
  have h8 := hr.header
  have hother : ∀ k, k < r ∨ r + 4 ≤ k → c k = b k := by
    intro k hk
    rw [hc, setInt_of_outside (by omega)]
  have hlength : ∀ k, r + 4 ≤ k → k < r + 4 + 2 → c k = b k := fun k h1 _ => hother k (.inr h1)
  have hout : ∀ k, k < r ∨ r + recordLength b r ≤ k → c k = b k := fun k hk => hother k (by omega)
  have hrec : recordLength c r = recordLength b r := short_congr hlength
  have hnum : fileNumber c r = 0 := by
    rw [hc]
    exact int_setInt_self (by decide) (by decide) r b
  refine ⟨hrec, ⟨?_, ?_, ?_, ?_, ?_, ?_⟩, ?_, hout⟩
  · rw [hrec]
    exact h8
  · rw [hrec]
    exact hr.inside
  · exact fun hu => absurd hnum hu
  · exact fun hu => absurd hnum hu
  · exact fun hu => absurd hnum hu
  · exact fun hu => absurd hnum hu
  · unfold view
    rw [hnum]
    rfl

theorem grown_record {t : Int} (ht : Record b t) (hr : Record b r) (hnext : t + recordLength b t = r)
    (hchunk : r % dirBlockSize ≠ 0) (hc : c = setShort (t + 4) (recordLength b t + recordLength b r) (setInt r 0 b)) :
    t + recordLength c t = r + recordLength b r ∧ Record c t ∧ view c t = view b t ∧
      ∀ k, k < t ∨ r + recordLength b r ≤ k → c k = b k := by
  have h8 := ht.header
  have h8' := hr.header
  have hin := ht.inside
  have hin' := hr.inside
  simp only [dirBlockSize] at hin hin' hchunk
  have hother : ∀ k, k < t + 4 ∨ t + 6 ≤ k → k < r ∨ r + 4 ≤ k → c k = b k := by
    intro k h1 h2
    rw [hc, setShort_of_outside (by omega), setInt_of_outside (by omega)]
  have hsmall : -32768 ≤ recordLength b t + recordLength b r ∧ recordLength b t + recordLength b r < 32768 := by omega
  have hhead : ∀ k, t ≤ k → k < t + 4 → c k = b k := fun k h1 h2 => hother k (by omega) (by omega)
  have hlength : ∀ k, t + 6 ≤ k → k < t + 6 + 2 → c k = b k := fun k h1 h2 => hother k (by omega) (by omega)
  have hname' : ∀ k, t + 8 ≤ k → k < r → c k = b k := fun k h1 h2 => hother k (by omega) (by omega)
  have hout : ∀ k, k < t ∨ r + recordLength b r ≤ k → c k = b k := fun k hk => hother k (by omega) (by omega)
  have hend : t + (recordLength b t + recordLength b r) = r + recordLength b r := by omega
  have hlong : 8 ≤ recordLength b t + recordLength b r ∧ recordLength b t ≤ recordLength b t + recordLength b r := by omega
  have hinside : t % dirBlockSize + (recordLength b t + recordLength b r) ≤ dirBlockSize := by
    simp only [dirBlockSize]
    omega
  have hchars : fileNumber b t ≠ 0 → ∀ k, t + 8 ≤ k → k ≤ t + 8 + nameLength b t → c k = b k := by
    intro hu k h1 h2
    have hroom := ht.room hu
    have hn := ht.named hu
    have hd := (le_dirRecLength (Int.le_trans (by decide) hn)).1
    exact hname' k h1 (Int.lt_of_lt_of_le (lt_end hd hroom h2) (Int.le_of_eq hnext))
  have hbytes : fileNumber b t ≠ 0 → bytesFrom c (t + 8) (nameLength b t).toNat = bytesFrom b (t + 8) (nameLength b t).toNat := by
    intro hu
    apply bytesFrom_congr
    intro k h1 h2
    rw [Int.toNat_of_nonneg (Int.le_trans (by decide) (ht.named hu))] at h2
    exact hchars hu k h1 (Int.le_of_lt h2)
  have hrec : recordLength c t = recordLength b t + recordLength b r := by
    rw [hc]
    exact short_setShort_self hsmall.1 hsmall.2 _ _
  have hnum : fileNumber c t = fileNumber b t := int_congr hhead
  have hname : nameLength c t = nameLength b t := short_congr hlength
  refine ⟨by rw [hrec]; exact hend, ⟨?_, ?_, ?_, ?_, ?_, ?_⟩, ?_, hout⟩
  · rw [hrec]
    exact hlong.1
  · rw [hrec]
    exact hinside
  · rw [hnum, hname]
    exact ht.named
  · rw [hnum, hname, hrec]
    exact fun hu => Int.le_trans (ht.room hu) hlong.2
  · rw [hnum, hname]
    intro hu
    rw [hchars hu _ (Int.le_add_of_nonneg_right (Int.le_trans (by decide) (ht.named hu))) (Int.le_refl _)]
    exact ht.nul hu
  · rw [hnum, hname]
    intro hu
    rw [hbytes hu]
    exact ht.chars hu
  · unfold view
    rw [hnum, hname]
    split_ifs with hu
    · rw [hbytes hu]
    · rfl

end SpriteKernel.Fslcl
