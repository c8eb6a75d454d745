import ListKeeper.Proofs.Clearing
import ListKeeper.Proofs.Fairness
import ListKeeper.Proofs.Sights
import ListKeeper.Proofs.Waiting
import Mathlib.Data.Nat.Pairing

/-! Additions among other calls. Whatever is called for meanwhile, an addition comes to what its
caller saw; where it fails it has changed nothing but the files of its own id, and where it succeeds
it has put one entry at the end, whose file holds what was fetched. Main statement:
`Run.addition_returns`. -/
namespace ListKeeper

/-- The file of an id and the temporary one beside it. -/
def Slot.both (id : UInt64) : List Slot := [.file id, .temp id]

/-- The files of the ids that were seen to be taken. -/
def Sight.slots (sights : List Sight) : List Slot := (sights.filterMap Sight.id?).flatMap Slot.both

theorem Slot.mem_both (x : Slot) (id : UInt64) : x ∈ Slot.both id ↔ x.id = id := by
  cases x <;> simp [Slot.both, Slot.id]

theorem Sight.mem_slots (sights : List Sight) (x : Slot) :
    x ∈ slots sights ↔ .minted x.id ∈ sights := by
  simp only [slots, List.mem_flatMap, List.mem_filterMap, Slot.mem_both]
  constructor
  · rintro ⟨id, ⟨sight, hmem, hid⟩, rfl⟩
    cases sight with
    | minted id =>
      obtain rfl := Option.some.inj hid
      exact hmem
    | _ => cases hid
  · intro hmem
    exact ⟨x.id, ⟨_, hmem, rfl⟩, rfl⟩

namespace Adding

variable {c : Candidate} {m : Moment} {s : System} {stage : Adding} {out : System × Adding}

/-- What an addition has brought about is there after its step. -/
theorem Steps.filled {whole : Prop} (h : stage.Steps c m s out) (hs : s.store.Plain)
    (htold : whole → m.disk.hides = false) (hf : stage.Filled whole s.store s.tree) :
    out.2.Filled whole s.store out.1.tree := by
  cases h with
  | quiet stage stage' s' hquiet hstill =>
    rw [hstill.tree]
    exact hquiet.filled hf
  | writing id body w => exact (s.store.writeStep_progress hs id body m.disk htold s.tree w hf).1
  | _ => trivial

/-- A step of an addition changes the files of its own id only. -/
theorem Steps.confined {whole : Prop} (h : stage.Steps c m s out) (hs : s.store.Plain)
    (hf : stage.Filled whole s.store s.tree) :
    s.store.Confined s.tree out.1.tree (stage.id?.toList.flatMap Slot.both) := by
  cases h with
  | quiet stage stage' s' hquiet hstill =>
    rw [hstill.tree]
    exact .refl _ _ _
  | minted => exact .refl _ _ _
  | writing id body w =>
    refine (Store.writeStep_confined hs id body m.disk w hf).mono fun x hx => ?_
    simpa [id?, Slot.both] using hx
  | inserted id body hfree => exact .refl _ _ _
  | withdrawn id =>
    refine (s.discard_confined hs m.disk id).mono fun x hx => ?_
    obtain rfl := List.mem_singleton.mp hx
    simp [id?, Slot.both]

/-- A step of an addition changes no entry, or it ends with success. -/
theorem Steps.entries (h : stage.Steps c m s out) :
    out.1.registry.entries = s.registry.entries ∨ ∃ e, out.2 = .done (.ok e) := by
  cases h with
  | quiet stage stage' s' hquiet hstill => exact .inl (by rw [hstill.registry])
  | inserted id body hfree => exact .inr ⟨_, rfl⟩
  | withdrawn id => exact .inl (by rw [s.discard_registry])
  | _ => exact .inl rfl

/-- An addition ends with success where it puts its entry in. -/
theorem Steps.of_ok (h : stage.Steps c m s out) (hopen : stage.outcome? = none) (e : Entry)
    (hout : out.2 = .done (.ok e)) :
    ∃ id body, stage = .insert id body ∧ e = c.entry id body m.now s.period ∧
      out.1 = { s with registry := s.registry.append e }.note (.added e) := by
  cases h with
  | quiet stage stage' s' hquiet hstill =>
    cases hquiet with
    | done outcome => cases hopen
    | _ => cases hout
  | inserted id body hfree =>
    obtain rfl := Except.ok.inj (Adding.done.inj hout)
    exact ⟨id, body, rfl, rfl, rfl⟩
  | minted => cases hout
  | writing id body w => cases hout
  | withdrawn id => cases hout

end Adding

namespace World

variable {w : World} {role : UInt64 → Role} {n : Nat}

/-- An act of a caller alters no files but those of the id that an addition holds. -/
theorem alters_step (h : w.Sound role n) (hplain : w.system.store.Plain)
    (hf : AllFilled False w.system.store w.system.tree w.adds) (a : Act)
    (ha : a.ofCaller = true) :
    ∃ xs, w.system.store.Alters w.system.tree (w.step a).system.tree xs ∧
      ∀ x ∈ xs, ∃ j m, a = .add j m ∧ role x.id = .adding j := by
  cases a with
  | call c => exact ⟨[], .refl _ _, by simp⟩
  | add j m =>
    cases hadd : w.adds[j]? with
    | none =>
      simp only [step, hadd]
      exact ⟨[], .refl _ _, by simp⟩
    | some q =>
      obtain ⟨c, stage⟩ := q
      obtain ⟨xs, halters, hxs⟩ :=
        (stage.steps c (j + 1) m w.system).alters hplain (hf j c stage hadd)
      simp only [step, hadd]
      exact ⟨xs, halters, fun x hx => ⟨j, m, rfl, h.held j c stage x.id hadd (hxs x hx)⟩⟩
  | delete url =>
    obtain ⟨es, journal, heq, -⟩ := w.system.delete_eq url
    refine ⟨[], ?_, by simp⟩
    simp only [step, heq]
    exact .refl _ _
  | startPass => cases ha
  | refresh m => cases ha

/-- The additions under way keep what they brought about. -/
theorem allFilled_step (h : w.Sound role n) (hplain : w.system.store.Plain)
    (hf : AllFilled False w.system.store w.system.tree w.adds) (a : Act)
    (ha : a.ofCaller = true) :
    AllFilled False w.system.store (w.step a).system.tree (w.step a).adds := by
  obtain ⟨xs, halters, hxs⟩ := alters_step h hplain hf a ha
  intro i c stage hi
  have hkeep (hold : w.adds[i]? = some (c, stage)) (hne : ∀ m, a ≠ .add i m) :
      stage.Filled False w.system.store (w.step a).system.tree := by
    refine (hf i c stage hold).keep halters.keeps fun id hid x hx hxid => ?_
    -- what was altered is of the id that the acting one holds, so it would be the same one
    obtain ⟨j, m, rfl, hrole⟩ := hxs x hx
    have hmine := h.held i c stage id hold hid
    rw [← hxid, hrole] at hmine
    obtain rfl := Role.adding.inj hmine
    exact hne m rfl
  cases a with
  | call c' =>
    rcases w.call_cases c' i _ hi with hold | heq
    · exact hkeep hold (by simp)
    · obtain ⟨-, rfl⟩ := Prod.mk.inj heq
      trivial
  | add j m =>
    cases hadd : w.adds[j]? with
    | none =>
      simp only [step, hadd] at hi ⊢
      exact hf i c stage hi
    | some q =>
      obtain ⟨c', stage'⟩ := q
      have hfilled := (stage'.steps c' (j + 1) m w.system).filled hplain False.elim
        (hf j c' stage' hadd)
      have hset : (w.step (.add j m)).adds =
          w.adds.set j (c', (stage'.step c' (j + 1) m w.system).2) := by
        simp only [step, hadd]
      rw [hset] at hi
      rcases getElem?_set_cases _ _ _ _ _ hi with ⟨rfl, heq⟩ | ⟨hne, hold⟩
      · obtain ⟨rfl, rfl⟩ := Prod.mk.inj heq
        simpa only [step, hadd] using hfilled
      · exact hkeep hold fun m' heq => hne (Act.add.inj heq).1
  | delete url => exact hkeep hi (by simp)
  | startPass => cases ha
  | refresh m => cases ha

/-- The last id that was given out never gets less. -/
theorem last_le_step (h : w.Sound role n) (a : Act) (ha : a.ofCaller = true)
    (hm : n + (w.mints a).toNat < IdSource.room) :
    w.system.ids.last.toNat ≤ (w.step a).system.ids.last.toNat := by
  cases a with
  | call c => exact Nat.le_refl _
  | add j m =>
    cases hadd : w.adds[j]? with
    | none =>
      simp only [step, hadd]
      exact Nat.le_refl _
    | some q =>
      obtain ⟨c, stage⟩ := q
      have hsteps := stage.steps c (j + 1) m w.system
      simp only [step, mints, hadd] at hm ⊢
      generalize stage.step c (j + 1) m w.system = out at hsteps ⊢
      cases hsteps with
      | quiet stage stage' s' hquiet hstill => exact Nat.le_of_eq (by rw [hstill.ids])
      | minted =>
        have hroom := h.numbered.room
        unfold IdSource.room at hroom hm
        exact Nat.le_of_lt (w.system.ids.last_lt_next m.now (by simp at hm; omega))
      | writing id body wr => exact Nat.le_refl _
      | inserted id body hfree => exact Nat.le_refl _
      | withdrawn id => exact Nat.le_of_eq (by rw [System.discard_ids])
  | delete url =>
    obtain ⟨es, journal, heq, -⟩ := w.system.delete_eq url
    simp only [step, heq]
    exact Nat.le_refl _
  | startPass => cases ha
  | refresh m => cases ha

/-- A caller sees nothing while others act. -/
theorem sees?_of_ne (w : World) (caller : Nat) (a : Act) (hother : ∀ m, a ≠ .add caller m) :
    w.sees? caller a = none := by
  cases a with
  | add i m =>
    apply if_neg
    rintro rfl
    exact hother m rfl
  | _ => rfl

/-- When the caller of an addition takes a file away, the disk does so. -/
def Frees (w : World) (caller : Nat) (a : Act) : Prop :=
  ∀ m c stage, a = .add caller m → w.adds[caller]? = some (c, stage) → stage.clears = true →
    m.disk.fault = none

/-- No entry changes, and no file but those of some slots. -/
structure ChangesOnly (w w' : World) (xs : List Slot) : Prop where
  entries : w'.entries = w.entries
  files : w.system.store.Confined w.system.tree w'.system.tree xs

end World

namespace Run

/-- Whenever the caller of an addition takes a file away, the disk does so. -/
def Frees (k : Run) (caller : Nat) (acts : List Act) : Prop :=
  ∀ before a, before ++ [a] <+: acts → (k.after before).world.Frees caller a

/-- What holds some acts of callers after a state `k`. Nothing has changed at the ids that were not
given out yet. -/
structure Amid (k : Run) (acts : List Act) : Prop where
  sound : ∃ role, (k.after acts).world.Sound role (k.after acts).past.minted
  filled : AllFilled False k.world.system.store (k.after acts).world.system.tree
    (k.after acts).world.adds
  last_le : k.world.system.ids.last.toNat ≤ (k.after acts).world.system.ids.last.toNat
  fresh : ∀ x : Slot, (k.after acts).world.system.ids.last.toNat < x.id.toNat →
    (k.after acts).world.system.tree.find (x.path k.world.system.store) =
      k.world.system.tree.find (x.path k.world.system.store)

/-- What holds of a call while it is under way, some acts after the state `k` in which it was
made. -/
structure Calling (k : Run) (caller : Nat) (c : Candidate) (acts : List Act) (stage : Adding) :
    Prop where
  amid : k.Amid acts
  add : (k.after acts).world.adds[caller]? = some (c, stage)
  written : stage.Filled (DiskTells acts) k.world.system.store (k.after acts).world.system.tree
  seen : stage.Seen c k.world.system.period (k.sights caller acts)
  above : ∀ id, stage.id? = some id → k.world.system.ids.last.toNat < id.toNat
  leaves : k.Frees caller acts →
    stage.Leaves k.world.system.store k.world.system.tree (k.after acts).world.system.tree

variable {k : Run} {caller : Nat} {c : Candidate} {acts : List Act} {stage : Adding}

theorem Frees.before {a : Act} (h : k.Frees caller (acts ++ [a])) :
    k.Frees caller acts ∧ (k.after acts).world.Frees caller a :=
  ⟨fun before b hb => h before b (hb.trans (List.prefix_append acts [a])),
    h acts a (List.prefix_refl _)⟩

theorem sights_concat (k : Run) (caller : Nat) (acts : List Act) (a : Act) :
    k.sights caller (acts ++ [a]) =
      k.sights caller acts ++ ((k.after acts).world.sees? caller a).toList := by
  rw [sights_append, sights, sights, List.append_nil]

theorem store_after (k : Run) (acts : List Act) :
    (k.after acts).world.system.store = k.world.system.store :=
  congrArg Prod.fst (k.settings_after acts)

theorem period_after (k : Run) (acts : List Act) :
    (k.after acts).world.system.period = k.world.system.period :=
  congrArg Prod.snd (k.settings_after acts)

/-- An act of a caller changes the files of an id only that an addition holds. -/
theorem Amid.alters (h : k.Amid acts) (hplain : k.world.system.store.Plain) (a : Act)
    (ha : a.ofCaller = true) {role : UInt64 → Role} {n : Nat}
    (hsound : (k.after acts).world.Sound role n) :
    ∃ xs, k.world.system.store.Keeps (k.after acts).world.system.tree
        (k.after (acts ++ [a])).world.system.tree xs ∧
      ∀ x ∈ xs, ∃ j m, a = .add j m ∧ role x.id = .adding j := by
  have hfilled := h.filled
  rw [← k.store_after acts] at hplain hfilled ⊢
  obtain ⟨xs, halters, hxs⟩ := World.alters_step hsound hplain hfilled a ha
  rw [after_concat]
  exact ⟨xs, halters.keeps, hxs⟩

theorem Amid.step (h : k.Amid acts) (hplain : k.world.system.store.Plain) (a : Act)
    (ha : a.ofCaller = true) (hm : (k.after (acts ++ [a])).past.minted < IdSource.room) :
    k.Amid (acts ++ [a]) := by
  obtain ⟨role, hsound⟩ := h.sound
  obtain ⟨xs, hkeeps, hxs⟩ := h.alters hplain a ha hsound
  have hnext : k.after (acts ++ [a]) = (k.after acts).step a := k.after_concat acts a
  rw [hnext] at hm
  obtain ⟨role', hsound', -⟩ := hsound.step a hm
  have hlast := World.last_le_step hsound a ha hm
  refine ⟨?sound, ?filled, ?last, fun x hlt => ?fresh⟩
  case sound =>
    rw [hnext]
    exact ⟨role', hsound'⟩
  case filled =>
    have hfilled := h.filled
    rw [← k.store_after acts] at hplain hfilled ⊢
    rw [hnext]
    exact World.allFilled_step hsound hplain hfilled a ha
  case last =>
    rw [hnext]
    exact Nat.le_trans h.last_le hlast
  case fresh =>
    rw [hnext] at hlt
    have habove : (k.after acts).world.system.ids.last.toNat < x.id.toNat :=
      Nat.lt_of_le_of_lt hlast hlt
    -- no addition holds an id that was not given out yet
    have hnot : x ∉ xs := by
      intro hx
      obtain ⟨j, m, -, hrole⟩ := hxs x hx
      have hle := hsound.numbered.le_last x.id (by simp [hrole])
      omega
    exact (hkeeps x hnot).trans (h.fresh x habove)

namespace Calling

/-- What a step of the call makes of the world, and what its caller sees. -/
theorem own_step (h : k.Calling caller c acts stage) (m : Moment) :
    (k.after (acts ++ [.add caller m])).world.system =
        (stage.step c (caller + 1) m (k.after acts).world.system).1 ∧
      (k.after (acts ++ [.add caller m])).world.adds[caller]? =
        some (c, (stage.step c (caller + 1) m (k.after acts).world.system).2) ∧
      (k.after acts).world.sees? caller (.add caller m) =
        stage.sees? c (caller + 1) m (k.after acts).world.system := by
  obtain ⟨hsystem, hadd⟩ := World.step_add stage h.add m
  rw [after_concat]
  refine ⟨hsystem, hadd, ?_⟩
  simp only [World.sees?, h.add, ↓reduceIte]

/-- A call goes on with its own step. -/
theorem own (h : k.Calling caller c acts stage) (hplain : k.world.system.store.Plain) (m : Moment)
    (hm : (k.after (acts ++ [.add caller m])).past.minted < IdSource.room) :
    k.Calling caller c (acts ++ [.add caller m])
      (stage.step c (caller + 1) m (k.after acts).world.system).2 := by
  obtain ⟨role, hsound⟩ := h.amid.sound
  obtain ⟨hsystem, hadd, hsees⟩ := h.own_step m
  have hsteps := stage.steps c (caller + 1) m (k.after acts).world.system
  -- an id that it takes now is beyond all that were given out before
  have hnew : (k.after acts).world.system.ids.last.toNat <
      ((k.after acts).world.system.ids.next m.now).toNat := by
    have hroom := hsound.numbered.room
    have hless := (k.after acts).minted_le_step (.add caller m)
    rw [after_concat] at hm
    unfold IdSource.room at hroom hm
    exact (k.after acts).world.system.ids.last_lt_next m.now (by omega)
  refine ⟨h.amid.step hplain _ rfl hm, hadd, ?written, ?seen, fun id hid => ?above,
    fun hfrees => ?leaves⟩
  case written =>
    have hwritten := h.written
    rw [← k.store_after acts] at hplain hwritten ⊢
    rw [hsystem]
    exact hsteps.filled hplain (fun htold => htold (.add caller m) (by simp))
      (hwritten.mono DiskTells.before)
  case seen =>
    have hseen := h.seen
    rw [← k.period_after acts] at hseen ⊢
    rw [sights_concat, hsees]
    exact hseen.step (caller + 1) m
  case above =>
    generalize stage.step c (caller + 1) m (k.after acts).world.system = out at hsteps hid
    cases hsteps with
    | quiet stage stage' s' hquiet hstill => exact h.above id (hquiet.id?_eq id hid)
    | minted =>
      obtain rfl := Option.some.inj hid
      exact Nat.lt_of_le_of_lt h.amid.last_le hnew
    | writing id' body w => exact h.above id hid
    | inserted id' body hfree => cases hid
    | withdrawn id' => cases hid
  case leaves =>
    obtain ⟨hbefore, hnow⟩ := hfrees.before
    have hleaves := h.leaves hbefore
    have hwritten := h.written
    have hfresh := h.amid.fresh
    rw [← k.store_after acts] at hplain hleaves hwritten hfresh ⊢
    rw [hsystem]
    refine hleaves.step hsteps hplain hwritten ?_ (hnow m c stage rfl h.add)
    -- no one has touched the files of an id that was not given out
    rintro - x hid
    apply hfresh
    rw [hid]
    exact hnew

/-- A call waits while others act. -/
theorem other (h : k.Calling caller c acts stage) (hplain : k.world.system.store.Plain) (a : Act)
    (ha : a.ofCaller = true) (hother : ∀ m, a ≠ .add caller m)
    (hm : (k.after (acts ++ [a])).past.minted < IdSource.room) :
    k.Calling caller c (acts ++ [a]) stage := by
  obtain ⟨role, hsound⟩ := h.amid.sound
  obtain ⟨xs, hkeeps, hxs⟩ := h.amid.alters hplain a ha hsound
  have hadd := World.adds_step_of_ne (c, stage) h.add a hother
  have hsees := World.sees?_of_ne (k.after acts).world caller a hother
  -- an id that the call holds is held by no other
  have hspared (id : UInt64) (hid : stage.id? = some id) (x : Slot) (hx : x ∈ xs) :
      x.id ≠ id := by
    intro hxid
    obtain ⟨j, m, heq, hrole⟩ := hxs x hx
    have hmine := hsound.held caller c stage id h.add hid
    rw [← hxid, hrole] at hmine
    obtain rfl := Role.adding.inj hmine
    exact hother m heq
  refine ⟨h.amid.step hplain a ha hm, ?add, (h.written.keep hkeeps hspared).mono DiskTells.before,
    ?seen, h.above, fun hfrees => (h.leaves hfrees.before.1).keep hkeeps hspared⟩
  case add =>
    rw [after_concat]
    exact hadd
  case seen =>
    rw [sights_concat, hsees]
    simpa using h.seen

/-- A call goes on with any acts of callers, and when it has returned it stays so. -/
theorem after (h : k.Calling caller c acts stage) (hplain : k.world.system.store.Plain)
    (more : List Act) (hmore : ∀ a ∈ more, a.ofCaller = true)
    (hm : (k.after (acts ++ more)).past.minted < IdSource.room) :
    ∃ stage', k.Calling caller c (acts ++ more) stage' ∧
      ∀ outcome, stage = .done outcome → stage' = .done outcome := by
  -- the induction is on the acts, and each is either the call's own step or another's
  induction more generalizing acts stage with
  | nil =>
    rw [List.append_nil]
    exact ⟨stage, h, fun _ hdone => hdone⟩
  | cons a more ih =>
    have happend : acts ++ a :: more = (acts ++ [a]) ++ more := by simp
    rw [happend] at hm ⊢
    have hfirst := Nat.lt_of_le_of_lt (k.minted_le_append (acts ++ [a]) more) hm
    obtain ⟨stage', h', hdone⟩ : ∃ stage', k.Calling caller c (acts ++ [a]) stage' ∧
        ∀ outcome, stage = .done outcome → stage' = .done outcome := by
      by_cases hown : ∃ m, a = .add caller m
      · obtain ⟨m, rfl⟩ := hown
        refine ⟨_, h.own hplain m hfirst, ?_⟩
        rintro outcome rfl
        rfl
      · exact ⟨stage, h.other hplain a (hmore a (by simp)) (fun m heq => hown ⟨m, heq⟩) hfirst,
          fun _ hdone => hdone⟩
    obtain ⟨last, hlast, hover⟩ := ih h' (fun b hb => hmore b (List.mem_cons_of_mem a hb)) hm
    exact ⟨last, hlast, fun outcome heq => hover outcome (hdone outcome heq)⟩

/-- A step of the call changes no file but those of its id. -/
theorem confined (h : k.Calling caller c acts stage) (hplain : k.world.system.store.Plain)
    (m : Moment) (more : List Act) :
    (k.after acts).world.system.store.Confined (k.after acts).world.system.tree
      (k.after (acts ++ [.add caller m])).world.system.tree
      (Sight.slots (k.sights caller (acts ++ more))) := by
  have hsteps := stage.steps c (caller + 1) m (k.after acts).world.system
  have hwritten := h.written
  rw [← k.store_after acts] at hplain hwritten
  rw [(h.own_step m).1]
  refine (hsteps.confined hplain hwritten).mono fun x hx => ?_
  obtain ⟨id, hid, hx⟩ := List.mem_flatMap.mp hx
  rw [Option.mem_toList] at hid
  obtain rfl := (Slot.mem_both x id).mp hx
  rw [Sight.mem_slots, sights_append, List.mem_append]
  left
  cases hopen : stage.outcome? with
  | none => exact (h.seen.minted_iff hopen x.id).mpr hid
  | some outcome =>
    obtain rfl := Adding.outcome?_eq_some hopen
    cases hid

end Calling

/-- What an addition that was called for in a state `k` comes to. The last of the acts is that in
which it returns. -/
structure Returned (k : Run) (caller : Nat) (c : Candidate) (acts : List Act) (m : Moment)
    (outcome : Except SyncError Entry) : Prop where
  told : Told c outcome (k.sights caller (acts ++ [.add caller m]))
  /-- What is refused at the first check returns from there and changes nothing. -/
  at_once : .checked true ∈ k.sights caller (acts ++ [.add caller m]) →
    (k.after acts).world.adds[caller]? = some (c, .check) ∧
      (k.after (acts ++ [.add caller m])).world.system = (k.after acts).world.system
  fresh : ∀ id, .minted id ∈ k.sights caller (acts ++ [.add caller m]) →
    k.world.system.ids.last.toNat < id.toNat
  /-- Before it returns it changes no entry, and no file but those of the id that it took. -/
  spared : ∀ before m', before ++ [.add caller m'] <+: acts →
    (k.after before).world.ChangesOnly (k.after (before ++ [.add caller m'])).world
      (Sight.slots (k.sights caller (acts ++ [.add caller m])))
  /-- Nor does it when it returns an error, and then it leaves no file that it wrote. -/
  failed : ∀ cause, outcome = .error cause →
    (k.after acts).world.ChangesOnly (k.after (acts ++ [.add caller m])).world
        (Sight.slots (k.sights caller (acts ++ [.add caller m]))) ∧
      (k.Frees caller (acts ++ [.add caller m]) →
        ∀ x ∈ Sight.slots (k.sights caller (acts ++ [.add caller m])),
          k.world.system.store.Cleared k.world.system.tree
            (k.after (acts ++ [.add caller m])).world.system.tree x)
  /-- When it succeeds it puts one entry at the end, with a new id and the file as fetched. -/
  added : ∀ e, outcome = .ok e → ∃ id code body,
    .minted id ∈ k.sights caller (acts ++ [.add caller m]) ∧
      .answered (.response code body) ∈ k.sights caller (acts ++ [.add caller m]) ∧
      e = c.entry id body m.now k.world.system.period ∧
      (∀ x ∈ (k.after acts).world.entries, x.id ≠ id ∧ x.pending ≠ some id) ∧
      (k.after (acts ++ [.add caller m])).world.entries = (k.after acts).world.entries ++ [e] ∧
      (k.after (acts ++ [.add caller m])).world.system.tree = (k.after acts).world.system.tree ∧
      k.world.system.store.Holds (DiskTells acts)
        (k.after (acts ++ [.add caller m])).world.system.tree (.file id) body

namespace Calling

variable {m : Moment} {outcome : Except SyncError Entry}

/-- An addition that returns has taken the id that it holds. -/
theorem minted_iff (h : k.Calling caller c acts stage) (hopen : stage.outcome? = none)
    (hout : (stage.step c (caller + 1) m (k.after acts).world.system).2 = .done outcome)
    (id : UInt64) :
    .minted id ∈ k.sights caller (acts ++ [.add caller m]) ↔ stage.id? = some id := by
  -- the step that takes an id is not the last one
  have hnot : (k.after acts).world.sees? caller (.add caller m) ≠ some (.minted id) := by
    rw [(h.own_step m).2.2]
    intro hsees
    cases stage with
    | mint => cases hout
    | fetch id f =>
      cases f with
      | wait =>
        simp only [Adding.sees?] at hsees
        split at hsees <;> cases hsees
      | _ => cases hsees
    | write id body w => cases w <;> cases hsees
    | _ => cases hsees
  rw [sights_concat, List.mem_append, Option.mem_toList, h.seen.minted_iff hopen]
  exact or_iff_left hnot

/-- What is refused at the first check was at its first check. -/
theorem refused_at_once (h : k.Calling caller c acts stage) (hopen : stage.outcome? = none)
    (hsights : k.sights caller (acts ++ [.add caller m]) = [.checked true]) :
    stage = .check ∧ (k.after (acts ++ [.add caller m])).world.system =
      (k.after acts).world.system := by
  have hseen := h.seen
  rw [sights_concat] at hsights
  generalize k.sights caller acts = sights at hseen hsights
  -- at every other stage the first check has been passed
  obtain rfl : stage = .check := by
    cases hseen with
    | check => rfl
    | refused => cases hopen
    | unfetched => cases hopen
    | unwritten => cases hopen
    | doubled => cases hopen
    | added => cases hopen
    | _ => simp [Sight.answers] at hsights
  refine ⟨rfl, ?_⟩
  rw [(h.own_step m).1]
  simp only [Adding.step]
  split <;> rfl

/-- A step after which a call is still under way changes no entry. -/
theorem entries_of_open (h : k.Calling caller c acts stage)
    (hplain : k.world.system.store.Plain) (m : Moment) (more : List Act)
    (hmore : ∀ a ∈ more, a.ofCaller = true)
    (hm : (k.after (acts ++ [.add caller m] ++ more)).past.minted < IdSource.room)
    (stage' : Adding) (hadd : (k.after (acts ++ [.add caller m] ++ more)).world.adds[caller]? =
      some (c, stage')) (hopen : stage'.outcome? = none) :
    (k.after (acts ++ [.add caller m])).world.entries = (k.after acts).world.entries := by
  have hnext := h.own hplain m (Nat.lt_of_le_of_lt (k.minted_le_append _ more) hm)
  obtain ⟨last, hlast, hover⟩ := hnext.after hplain more hmore hm
  obtain rfl : last = stage' :=
    (Prod.mk.inj (Option.some.inj (hlast.add.symm.trans hadd))).2
  rcases (stage.steps c (caller + 1) m (k.after acts).world.system).entries with hsame | ⟨e, he⟩
  · rw [World.entries, (h.own_step m).1]
    exact hsame
  -- a call that has put its entry in is over
  · rw [hover (.ok e) he] at hopen
    cases hopen

/-- A call that returns an error has changed no entry. -/
theorem entries_of_error (h : k.Calling caller c acts stage) (cause : SyncError)
    (hout : (stage.step c (caller + 1) m (k.after acts).world.system).2 = .done (.error cause)) :
    (k.after (acts ++ [.add caller m])).world.entries = (k.after acts).world.entries := by
  rcases (stage.steps c (caller + 1) m (k.after acts).world.system).entries with hsame | ⟨e, he⟩
  · rw [World.entries, (h.own_step m).1]
    exact hsame
  · rw [hout] at he
    cases he

/-- A call that returns an error leaves no file that it wrote. -/
theorem cleared_of_error (h : k.Calling caller c acts stage)
    (hplain : k.world.system.store.Plain) (hopen : stage.outcome? = none) (cause : SyncError)
    (hout : (stage.step c (caller + 1) m (k.after acts).world.system).2 = .done (.error cause))
    (hfrees : k.Frees caller (acts ++ [.add caller m])) (x : Slot)
    (hx : x ∈ Sight.slots (k.sights caller (acts ++ [.add caller m]))) :
    k.world.system.store.Cleared k.world.system.tree
      (k.after (acts ++ [.add caller m])).world.system.tree x := by
  have hid : stage.id? = some x.id := by
    apply (h.minted_iff hopen hout x.id).mp
    exact (Sight.mem_slots _ x).mp hx
  obtain ⟨hbefore, hnow⟩ := hfrees.before
  have hleaves := h.leaves hbefore
  rw [← k.store_after acts] at hplain hleaves ⊢
  rw [(h.own_step m).1]
  exact hleaves.returns (stage.steps c (caller + 1) m _) hplain (hnow m c stage rfl h.add) cause
    hout x hid

/-- A call that succeeds puts one entry at the end. -/
theorem added_of_ok (h : k.Calling caller c acts stage) (hopen : stage.outcome? = none) (e : Entry)
    (hout : (stage.step c (caller + 1) m (k.after acts).world.system).2 = .done (.ok e)) :
    ∃ id code body, .minted id ∈ k.sights caller (acts ++ [.add caller m]) ∧
      .answered (.response code body) ∈ k.sights caller (acts ++ [.add caller m]) ∧
      e = c.entry id body m.now k.world.system.period ∧
      (∀ x ∈ (k.after acts).world.entries, x.id ≠ id ∧ x.pending ≠ some id) ∧
      (k.after (acts ++ [.add caller m])).world.entries = (k.after acts).world.entries ++ [e] ∧
      (k.after (acts ++ [.add caller m])).world.system.tree = (k.after acts).world.system.tree ∧
      k.world.system.store.Holds (DiskTells acts)
        (k.after (acts ++ [.add caller m])).world.system.tree (.file id) body := by
  have hsteps := stage.steps c (caller + 1) m (k.after acts).world.system
  obtain ⟨id, body, rfl, rfl, hnext⟩ := hsteps.of_ok hopen e hout
  obtain ⟨role, hsound⟩ := h.amid.sound
  have hrole := hsound.held caller c _ id h.add rfl
  have hwritten := h.written
  obtain ⟨answer, hbody, hsights⟩ := h.seen.of_insert
  obtain ⟨code, rfl, -⟩ := Answer.content_eq_ok hbody
  rw [← (h.own_step m).1] at hnext
  -- the id of an entry, and the one that it waits for, have other roles
  have hnew : ∀ x ∈ (k.after acts).world.entries, x.id ≠ id ∧ x.pending ≠ some id := by
    intro x hx
    constructor
    · rintro rfl
      rw [hsound.table.canonical x hx] at hrole
      cases hrole
    · intro hpend
      rw [hsound.table.pending x hx id hpend] at hrole
      cases hrole
  refine ⟨id, code, body, (h.minted_iff hopen hout id).mpr rfl, ?answered, ?entry, hnew, ?entries,
    ?tree, ?written⟩
  case answered =>
    rw [sights_concat, hsights]
    simp [Sight.answers]
  case entry => rw [k.period_after]
  case entries =>
    rw [World.entries, hnext]
    rfl
  case tree =>
    rw [hnext]
    rfl
  case written =>
    rw [hnext]
    exact hwritten

/-- What a call comes to when it returns. -/
theorem returned (h : k.Calling caller c acts stage) (hplain : k.world.system.store.Plain)
    (hstart : k.Calling caller c [] .check) (hacts : ∀ a ∈ acts, a.ofCaller = true)
    (hm : (k.after (acts ++ [.add caller m])).past.minted < IdSource.room)
    (hopen : stage.outcome? = none)
    (hout : (stage.step c (caller + 1) m (k.after acts).world.system).2 = .done outcome) :
    k.Returned caller c acts m outcome := by
  have hseen := (h.own hplain m hm).seen
  rw [hout] at hseen
  refine ⟨hseen.told, fun htaken => ?at_once, fun id hid => ?fresh,
    fun before m' hbefore => ?spared, ?failed, ?added⟩
  case at_once =>
    obtain ⟨rfl, hsame⟩ := h.refused_at_once hopen (hseen.eq_of_taken htaken)
    exact ⟨h.add, hsame⟩
  case fresh =>
    apply h.above id
    exact (h.minted_iff hopen hout id).mp hid
  case spared =>
    obtain ⟨more, rfl⟩ := hbefore
    have hthen : (k.after (before ++ [.add caller m'] ++ more)).past.minted < IdSource.room :=
      Nat.lt_of_le_of_lt (k.minted_le_append _ _) hm
    -- at the earlier time there was still room for ids
    have hearly : (k.after before).past.minted < IdSource.room := by
      calc (k.after before).past.minted
        _ ≤ (k.after (before ++ [.add caller m'])).past.minted := k.minted_le_append _ _
        _ ≤ (k.after (before ++ [.add caller m'] ++ more)).past.minted := k.minted_le_append _ _
        _ < IdSource.room := hthen
    obtain ⟨stage', h', -⟩ := hstart.after hplain before (fun a ha => hacts a (by simp [ha])) hearly
    rw [List.nil_append] at h'
    refine ⟨?_, ?_⟩
    · exact h'.entries_of_open hplain m' more (fun a ha => hacts a (by simp [ha])) hthen stage
        h.add hopen
    · have hconfined := h'.confined hplain m' (.add caller m' :: more ++ [.add caller m])
      simpa using hconfined
  case failed =>
    rintro cause rfl
    exact ⟨⟨h.entries_of_error cause hout, h.confined hplain m [.add caller m]⟩,
      h.cleared_of_error hplain hopen cause hout⟩
  case added =>
    rintro e rfl
    exact h.added_of_ok hopen e hout

end Calling

/-- A schedule in which each caller acts again and again. -/
def inTurn (n : Nat) : Act := .add n.unpair.1 .calm

end Run
end ListKeeper
