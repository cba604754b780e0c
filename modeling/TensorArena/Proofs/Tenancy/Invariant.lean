import TensorArena.Proofs.Tenancy.Basic

/-!
# Every step keeps the tenants lodged

An action writes below the tail of the moment or into blocks of whoever acts, and nowhere else:
`Acted`. So it cannot touch a table of another tenant, and a tenant that acts itself leaves its own
tables alone. The invariant of tenancies follows action by action, and for whole runs by induction.
-/

namespace TensorArena

variable {σ π : Type}

namespace Site

/-- What an action may do to a site when whoever acts owns certain offsets. -/
structure Acted (own : Nat → Prop) (s s' : Site σ π) : Prop where
  sound : s'.Sound
  grown : s.granted <:+ s'.granted
  size_eq : s'.memory.size = s.memory.size
  agree : ∀ x, s.arena.tail ≤ x → ¬ own x → s'.memory.get x = s.memory.get x

variable {own : Nat → Prop} {s s' s'' : Site σ π}

theorem Since.acted (h : s.Since s') : s.Acted own s' where
  sound := h.sound
  grown := h.grown
  size_eq := h.size_eq
  agree x hx _ := h.agree x (.inl hx)

theorem Wrote.acted (h : s.Wrote own s') (hs : s.Sound) : s.Acted own s' where
  sound := h.sound hs
  grown := h.granted_eq ▸ List.suffix_refl _
  size_eq := h.size_eq
  agree x _ hx := h.agree x hx

theorem Acted.of_store (hs : s.Sound) (hstore : s'.store = s.store)
    (hgranted : s'.granted = s.granted) : s.Acted own s' where
  sound := ⟨by rw [arena, hstore]; exact hs.kept, by rw [arena, hstore, hgranted]; exact hs.holds,
    by rw [hgranted]; exact hs.clear⟩
  grown := hgranted ▸ List.suffix_refl _
  size_eq := by rw [memory, hstore]
  agree x _ _ := by rw [memory, hstore]

theorem Acted.refl (hs : s.Sound) : s.Acted own s :=
  .of_store hs rfl rfl

/-- A pass, and then writes below where the tail was before it. -/
theorem Since.acted_wrote {own' : Nat → Prop} (h : s.Since s') (hw : s'.Wrote own' s'')
    (hbelow : ∀ x, own' x → x < s.arena.tail) : s.Acted own s'' where
  sound := hw.sound h.sound
  grown := hw.granted_eq ▸ h.grown
  size_eq := hw.size_eq.trans h.size_eq
  agree x hx _ := by
    rw [hw.agree x fun hx' => absurd (hbelow x hx') (Nat.not_lt.mpr hx), h.agree x (.inl hx)]

theorem Acted.granted_eq (h : s.Acted own s') : s'.granted = s.fresh s' ++ s.granted := by
  obtain ⟨blocks, hblocks⟩ := h.grown
  rw [fresh_of_eq hblocks.symm, hblocks]

end Site

/-- All that an interpreter can write lies below the tail that its pass began at. -/
theorem Allotment.Fits.reach_lt {a : Allotment} {g : Graph} {tables : Tables} (h : a.Fits g tables)
    {x : Nat} (hx : a.Reach x) : x < a.stages.start := by
  obtain ⟨h₁, h₂, h₃, h₄, h₅, h₆⟩ := h.falling
  obtain ⟨hplace, -⟩ := hx
  omega

namespace Tenancy

variable {t : Tenancy σ π}

/-! ## Calls of a tenant -/

/-- What a call of a tenant on its interpreter may lead to. -/
structure Called (t : Tenancy σ π) (number : Nat) (i : Interpreter σ π) (s : Site σ π) : Prop where
  acted : t.site.Acted (t.Owns (.tenant number)) s
  made : i.Made
  strategy : i.strategy.Sound
  lodged : ∀ tables, i.state.tables? = some tables → ∃ a, i.Lodged tables a s.memory ∧
    ∀ b ∈ a.blocks, b ∈ t.site.fresh s ∨ ⟨.tenant number, b⟩ ∈ t.deeds

/-- A call that leaves the arena alone, and of the interpreter what a tenant depends on. -/
theorem Tenant.called_quiet {n : Nat} {i i' : Interpreter σ π} (h : t.Tenant n i) (ht : t.Sound)
    {s : Site σ π} (hq : t.site.Quiet s) (hgraph : i'.graph = i.graph)
    (hkernels : i'.kernels = i.kernels) (hstate : i'.state = i.state)
    (hstrategy : i'.strategy.Sound) : t.Called n i' s where
  acted := (Site.Wrote.of_quiet hq).acted ht.site
  made := by
    obtain ⟨h₁, h₂, h₃⟩ := h.made
    refine ⟨?_, ?_, ?_⟩
    · rw [hkernels, hgraph]
      exact h₁
    · rw [hgraph]
      exact h₂
    · rw [hgraph]
      exact h₃
  strategy := hstrategy
  lodged tables htables := by
    obtain ⟨a, hl, hblocks⟩ := h.lodged tables (hstate ▸ htables)
    exact ⟨a, hl.wrote (.of_quiet hq) hgraph htables, fun b hb => .inr (hblocks b hb)⟩

/-- A call that writes within reach, and at most fails the interpreter. -/
theorem Tenant.called_wrote {n : Nat} {i i' : Interpreter σ π} (h : t.Tenant n i) (ht : t.Sound)
    {s : Site σ π} {tables : Tables} {a : Allotment} (hl : i.Lodged tables a t.site.memory)
    (hblocks : ∀ b ∈ a.blocks, ⟨.tenant n, b⟩ ∈ t.deeds) (hw : t.site.Wrote a.Reach s)
    (hi : i' = i ∨ i' = { i with state := .failed (some tables) }) : t.Called n i' s := by
  have howns : ∀ x, a.Reach x → t.Owns (.tenant n) x := by
    rintro x ⟨-, b, hb, hx⟩
    exact ⟨b, hblocks b hb, hx⟩
  refine ⟨(hw.mono howns).acted ht.site, ?_, ?_, fun tables' htables => ?_⟩
  · rcases hi with rfl | rfl
    · exact h.made
    · exact ⟨h.made.kernels_length, h.made.inputs, h.made.outputs⟩
  · rcases hi with rfl | rfl
    · exact h.strategy
    · exact h.strategy
  · have htables' : i'.state.tables? = some tables := by
      rcases hi with rfl | rfl
      · exact hl.tables_eq
      · rfl
    cases htables.symm.trans htables'
    refine ⟨a, hl.wrote hw ?_ htables', fun b hb => .inr (hblocks b hb)⟩
    rcases hi with rfl | rfl
    · rfl
    · rfl

/-- What an allocation leads to; when it succeeded, the interpreter is lodged in the new blocks. -/
theorem Tenant.called_allocating {n : Nat} {i i' : Interpreter σ π} (h : t.Tenant n i)
    (ht : t.Sound) {answer : Except AllocationError Unit} {s : Site σ π}
    (hcall : i.Allocating t.site answer i' s) : t.Called n i' s := by
  cases hcall with
  | stayed => exact h.called_quiet ht (.refl _) rfl rfl rfl h.strategy
  | done hstate _ hc hq =>
    have hlodged := Interpreter.lodged_of_committed ht.site hc hq
    refine ⟨(hc.since.quiet hq).acted, ⟨h.made.kernels_length, h.made.inputs, h.made.outputs⟩,
      h.strategy, fun tables' htables => ?_⟩
    cases htables
    refine ⟨_, hlodged, fun b hb => .inl ?_⟩
    rw [hc.blocks_eq, Site.fresh_congr hq.granted_eq.symm] at hb
    exact hb
  | failed hstate hs =>
    refine ⟨hs.acted, ⟨h.made.kernels_length, h.made.inputs, h.made.outputs⟩, h.strategy, nofun⟩

/-- A pass that succeeds, and then writes within the reach that it left. -/
theorem Tenant.called_done {n : Nat} {i i' : Interpreter σ π} (h : t.Tenant n i) (ht : t.Sound)
    {tables : Tables} {a : Allotment} {s₁ s₂ s : Site σ π}
    (hc : Pass.Committed i.graph.toGraph i.kernels i.strategy t.site s₁ tables a) (hq : s₁.Quiet s₂)
    (hw : s₂.Wrote a.Reach s)
    (hi : i' = { i with state := .allocated tables } ∨
      i' = { i with state := .failed (some tables) }) : t.Called n i' s := by
  have hlodged := Interpreter.lodged_of_committed ht.site hc hq
  refine ⟨(hc.since.quiet hq).acted_wrote hw fun x hx => hc.start_eq ▸ hc.fits.reach_lt hx, ?_, ?_,
    fun tables' htables => ?_⟩
  · rcases hi with rfl | rfl
    · exact ⟨h.made.kernels_length, h.made.inputs, h.made.outputs⟩
    · exact ⟨h.made.kernels_length, h.made.inputs, h.made.outputs⟩
  · rcases hi with rfl | rfl
    · exact h.strategy
    · exact h.strategy
  · have hknown : i'.graph = i.graph ∧ i'.state.tables? = some tables := by
      rcases hi with rfl | rfl
      · exact ⟨rfl, rfl⟩
      · exact ⟨rfl, rfl⟩
    cases htables.symm.trans hknown.2
    refine ⟨a, hlodged.wrote hw hknown.1 hknown.2, fun b hb => .inl ?_⟩
    rw [hc.blocks_eq, Site.fresh_congr (hw.granted_eq.trans hq.granted_eq).symm] at hb
    exact hb

theorem Tenant.called_overwrite {n : Nat} {i : Interpreter σ π} (h : t.Tenant n i) (ht : t.Sound)
    (id : Nat) (bytes : Bytes) : t.Called n i (i.overwrite t.site id bytes) := by
  have hstayed : t.Called n i t.site := h.called_quiet ht (.refl _) rfl rfl rfl h.strategy
  unfold Interpreter.overwrite
  split
  · exact hstayed
  · rename_i handle hhandle
    split
    · rename_i hlen
      obtain ⟨tables, htables⟩ := Interpreter.tables_of_writableTensor hhandle
      obtain ⟨a, hl, hblocks⟩ := h.lodged tables htables
      exact h.called_wrote ht hl hblocks (hl.put_wrote hhandle hlen) (.inl rfl)
    · exact hstayed

theorem Tenant.called_invoke {n : Nat} {i : Interpreter σ π} (h : t.Tenant n i) (ht : t.Sound) :
    t.Called n (i.invoke t.site).2.1 (i.invoke t.site).2.2 := by
  unfold Interpreter.invoke
  split
  · exact h.called_quiet ht (.refl _) rfl rfl rfl h.strategy
  · rename_i tables hstate
    obtain ⟨a, hl, hblocks⟩ := h.lodged tables (by rw [hstate]; rfl)
    obtain ⟨hw, hi, -⟩ := Interpreter.runOnce_wrote hl
    exact h.called_wrote ht hl hblocks hw hi
  · rename_i hstate
    have hcall := i.allocating ht.site h.made.kernels_length h.strategy
    split
    · rename_i hallocate
      rw [hallocate] at hcall
      exact h.called_allocating ht hcall
    · rename_i i' s' hallocate
      rw [hallocate] at hcall
      cases hcall with
      | stayed =>
        rw [hstate]
        exact h.called_quiet ht (.refl _) rfl rfl rfl h.strategy
      | done _ _ hc hq =>
        have hlodged := Interpreter.lodged_of_committed ht.site hc hq
        obtain ⟨hw, hi, -⟩ := Interpreter.runOnce_wrote hlodged
        exact h.called_done ht hc hq hw hi

/-! ## One step -/

/-- A tenant that did not act stays lodged: its tables are blocks of its own. -/
theorem Tenant.stays {n : Nat} {i : Interpreter σ π} (h : t.Tenant n i) (ht : t.Sound)
    {owner : Owner} {s : Site σ π} (ha : t.site.Acted (t.Owns owner) s) (hne : .tenant n ≠ owner)
    {t' : Tenancy σ π} (hsite : t'.site = s) (hdeeds : t.deeds ⊆ t'.deeds) : t'.Tenant n i := by
  refine ⟨h.made, h.strategy, fun tables htables => ?_⟩
  obtain ⟨a, hl, hblocks⟩ := h.lodged tables htables
  have hagree : ∀ r, ⟨.tail, r, arenaAlignment⟩ ∈ a.blocks → t.site.memory.AgreeOn s.memory r := by
    intro r hr
    have hdeed := hblocks _ hr
    refine ⟨ha.size_eq, fun x hx => ha.agree x ?_ ?_⟩
    · have hholds := ht.site.holds ⟨.tail, r, arenaAlignment⟩
        (ht.deeds ▸ List.mem_map_of_mem hdeed)
      exact Nat.le_trans hholds.1 hx.1
    · exact ht.not_owns hdeed rfl hne hx
  subst hsite
  exact ⟨a, hl.agree ha.size_eq hagree, fun b hb => hdeeds (hblocks b hb)⟩

/-- An action of the owner that led to these: it wrote only below the tail or into blocks of its own,
and the invariant holds again. -/
structure Next (t : Tenancy σ π) (owner : Owner) (s : Site σ π)
    (tenants : List (Option (Interpreter σ π))) : Prop where
  acted : t.site.Acted (t.Owns owner) s
  sound : Sound ⟨s, tenants, (t.site.fresh s).map (Deed.mk owner) ++ t.deeds⟩

/-- Each interpreter stayed as it was while somebody else acted, or was called by its tenant. -/
theorem Sound.next (ht : t.Sound) {owner : Owner} {s : Site σ π}
    {tenants : List (Option (Interpreter σ π))} (ha : t.site.Acted (t.Owns owner) s)
    (htenants : ∀ n i, (tenants[n]?).join = some i →
      t.tenant? n = some i ∧ .tenant n ≠ owner ∨ .tenant n = owner ∧ t.Called n i s) :
    t.Next owner s tenants := by
  refine ⟨ha, ha.sound, ?_, fun n i hi => ?_⟩
  · rw [List.map_append, List.map_map, ht.deeds, ha.granted_eq]
    exact congrArg (· ++ t.site.granted) (List.map_id _)
  · rcases htenants n i hi with ⟨hold, hne⟩ | ⟨heq, hcalled⟩
    · exact (ht.tenants n i hold).stays ht ha hne rfl (List.subset_append_right ..)
    · refine ⟨hcalled.made, hcalled.strategy, fun tables htables => ?_⟩
      obtain ⟨a, hl, hblocks⟩ := hcalled.lodged tables htables
      refine ⟨a, hl, fun b hb => ?_⟩
      rcases hblocks b hb with hfresh | hdeed
      · rw [heq]
        exact List.mem_append_left _ (List.mem_map_of_mem hfresh)
      · exact List.mem_append_right _ hdeed

theorem join_getElem?_set {l : List (Option α)} {n m : Nat} {x : Option α} {a : α}
    (h : ((l.set n x)[m]?).join = some a) : m = n ∧ x = some a ∨ m ≠ n ∧ (l[m]?).join = some a := by
  by_cases hm : m = n
  · subst hm
    by_cases hlt : m < l.length
    · rw [List.getElem?_set_self hlt] at h
      exact .inl ⟨rfl, h⟩
    · rw [List.getElem?_eq_none (by simpa using hlt)] at h
      cases h
  · rw [List.getElem?_set_ne (Ne.symm hm)] at h
    exact .inr ⟨hm, h⟩

/-- What stands at a place of a longer list stood there before, or is the new element. -/
theorem join_getElem?_concat {l : List (Option α)} {m : Nat} {x a : α}
    (h : ((l ++ [some x])[m]?).join = some a) : m = l.length ∧ x = a ∨ (l[m]?).join = some a := by
  rcases Nat.lt_trichotomy m l.length with hlt | rfl | hgt
  · rw [List.getElem?_append_left hlt] at h
    exact .inr h
  · rw [List.getElem?_append_right (Nat.le_refl _), Nat.sub_self] at h
    exact .inl ⟨rfl, Option.some.inj h⟩
  · rw [List.getElem?_eq_none (by rw [List.length_append]; exact hgt)] at h
    cases h

theorem tenant_ne {n m : Nat} (h : m ≠ n) : Owner.tenant m ≠ .tenant n :=
  fun heq => h (Owner.tenant.inj heq)

/-- A call changes the interpreter of the tenant that makes it, and no other. -/
theorem Sound.next_call (ht : t.Sound) {n : Nat}
    {f : Interpreter σ π → Site σ π → Interpreter σ π × Site σ π}
    (hcall : ∀ i, t.Tenant n i → t.Called n (f i t.site).1 (f i t.site).2) :
    t.Next (.tenant n) (t.call n f).1 (t.call n f).2 := by
  unfold call
  cases htenant : t.tenant? n with
  | none =>
    refine ht.next (.refl ht.site) fun m i hi => .inl ⟨hi, tenant_ne ?_⟩
    rintro rfl
    cases htenant.symm.trans hi
  | some i =>
    have hcalled := hcall i (ht.tenants n i htenant)
    refine ht.next hcalled.acted fun m i' hi' => ?_
    rcases join_getElem?_set hi' with ⟨rfl, heq⟩ | ⟨hne, hold⟩
    · cases heq
      exact .inr ⟨rfl, hcalled⟩
    · exact .inl ⟨hold, tenant_ne hne⟩

theorem Sound.next_holder (ht : t.Sound) {s : Site σ π} (ha : t.site.Acted (t.Owns .holder) s) :
    t.Next .holder s t.tenants :=
  ht.next ha fun _ _ hi => .inl ⟨hi, nofun⟩

theorem acted_create (hs : t.site.Sound) (own : Nat → Prop) (g : CheckedGraph)
    (resolver : Resolver σ) : t.site.Acted own (Interpreter.create g resolver t.site).2 := by
  unfold Interpreter.create
  split
  · exact .of_store hs rfl rfl
  · exact .of_store hs rfl rfl

theorem Sound.next_enter (ht : t.Sound) (g : CheckedGraph) (resolver : Resolver σ) :
    t.Next (.tenant t.tenants.length) (t.act (.enter g resolver)).1
      (t.act (.enter g resolver)).2 := by
  have hold : ∀ {n : Nat} {i : Interpreter σ π}, t.tenant? n = some i →
      Owner.tenant n ≠ .tenant t.tenants.length := by
    intro n i hi heq
    cases heq
    rw [tenant?, List.getElem?_eq_none (Nat.le_refl _)] at hi
    cases hi
  have ha := acted_create ht.site (t.Owns (.tenant t.tenants.length)) g resolver
  unfold act
  dsimp only
  split
  · rename_i i s hcreate
    rw [hcreate] at ha
    obtain ⟨hmade, -, hstate, hstrategy⟩ := Interpreter.create_ok hcreate
    refine ht.next ha fun n i' hi' => ?_
    -- The new tenant gets the first free number.
    rcases join_getElem?_concat hi' with ⟨rfl, rfl⟩ | hi'
    · refine .inr ⟨rfl, ha, hmade, ?_, fun tables htables => ?_⟩
      · rw [hstrategy]
        exact Strategy.firstFit_sound
      · rw [hstate] at htables
        cases htables
    · exact .inl ⟨hi', hold hi'⟩
  · rename_i e s hcreate
    rw [hcreate] at ha
    exact ht.next ha fun n i hi => .inl ⟨hi, hold hi⟩

theorem Sound.next_drop (ht : t.Sound) (n : Nat) :
    t.Next (.tenant n) (t.act (.drop n)).1 (t.act (.drop n)).2 := by
  unfold act
  dsimp only
  cases htenant : t.tenant? n with
  | none =>
    refine ht.next (.refl ht.site) fun m i hi => .inl ⟨hi, tenant_ne ?_⟩
    rintro rfl
    cases htenant.symm.trans hi
  | some i =>
    refine ht.next (.of_store ht.site rfl rfl) fun m i' hi' => ?_
    rcases join_getElem?_set hi' with ⟨-, hnone⟩ | ⟨hne, hold⟩
    · cases hnone
    · exact .inl ⟨hold, tenant_ne hne⟩

theorem Sound.next_poke (ht : t.Sound) (block : Block) (offset : Nat) (bytes : Bytes) :
    t.Next .holder (t.act (.poke block offset bytes)).1 (t.act (.poke block offset bytes)).2 := by
  unfold act
  dsimp only
  split
  · rename_i hown
    obtain ⟨hdeed, hlow, hhigh⟩ := hown
    refine ht.next_holder (Site.Wrote.acted ?_ ht.site)
    refine .of_store rfl rfl rfl (Memory.size_write ..) fun x hx => ?_
    refine Memory.get_write_of_not_covers _ fun hc => hx ⟨block, hdeed, ?_⟩
    simp only [ByteRange.Covers, ByteRange.stop] at hc hhigh ⊢
    omega
  · exact ht.next_holder (.refl ht.site)

/-- Every action, action by action. -/
theorem Sound.next_act (ht : t.Sound) (action : Action σ π) :
    t.Next (t.actor action) (t.act action).1 (t.act action).2 := by
  cases action with
  | enter g resolver => exact ht.next_enter g resolver
  | equip n strategy profiler profiling =>
    exact ht.next_call fun i h => h.called_quiet ht (.refl _) rfl rfl rfl strategy.sound
  | setContext n value =>
    refine ht.next_call fun i h => ?_
    unfold Interpreter.setContext
    split
    · exact h.called_quiet ht (.refl _) rfl rfl rfl h.strategy
    · exact h.called_quiet ht (.note ..) rfl rfl rfl h.strategy
  | allocate n =>
    exact ht.next_call fun i h =>
      h.called_allocating ht (i.allocating ht.site h.made.kernels_length h.strategy)
  | write n id bytes => exact ht.next_call fun i h => h.called_overwrite ht id bytes
  | invoke n => exact ht.next_call fun i h => h.called_invoke ht
  | drop n => exact ht.next_drop n
  | request region size align category =>
    exact ht.next_holder (Site.request_since ht.site region size align category).acted
  | rewind => exact ht.next_holder (Site.Since.rewind ht.site).acted
  | poke block offset bytes => exact ht.next_poke block offset bytes
  | hold hold => exact ht.next_holder (.of_store ht.site rfl rfl)
  | profile change => exact ht.next_holder (.of_store ht.site rfl rfl)

theorem Sound.step (ht : t.Sound) (action : Action σ π) : (t.step action).Sound :=
  (ht.next_act action).sound

/-- Whole runs keep the invariant. -/
theorem Sound.run (ht : t.Sound) (actions : List (Action σ π)) : (t.run actions).Sound := by
  induction actions generalizing t with
  | nil => exact ht
  | cons action rest ih => exact ih (ht.step action)

end Tenancy

end TensorArena
