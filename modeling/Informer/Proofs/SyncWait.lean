import Mathlib.Logic.Function.Iterate
import Informer.Proofs.FirstListing

/-!
# Calls that wait for first listings

A caller can wait until the first listing of one entry has been applied, or those of all entries
that are in the map. Such a call takes the entries one after another. It looks at the flag of the
entry; if that is not set, it waits for the flag or for the stop signal, whichever it notices; and
when it notices the stop signal, it looks at the flag once more. It is answered false when the flag
is not set even then, and true when it is through with all entries.

Anything may come between two steps of a call, so what it saw may be long past when it is answered.
Since no flag is ever taken back (`Traffic.synced_act`), what it found it may rely on
(`Waiting.Sound`), and its answer is right when it is given (`Waiting.Sound.right`). With nothing
in between the answer is that of `Cache.syncAnswer?` (`Waiting.exists_rest`). The main result is
`sync_means_listed`.
-/

namespace Informer

/-- Where a call stands that waits for first listings. -/
inductive Waiting where
  /-- It looks at the flags of the entries that are left, one after another. -/
  | looking (left : List Kind)
  /-- The flag of an entry was not set. It waits for the flag or for the stop signal. -/
  | waiting (kind : Kind) (left : List Kind)
  /-- It noticed the stop signal, and looks at the flag once more. -/
  | checking (kind : Kind) (left : List Kind)
  | answered (answer : Bool)

namespace Waiting

/-- The kinds whose flags a call has still to find set. -/
def left : Waiting → List Kind
  | looking left => left
  | waiting kind left | checking kind left => kind :: left
  | answered _ => []

/-- What a call was answered. -/
def answer? : Waiting → Option Bool
  | answered answer => some answer
  | _ => none

/-- One step of a call. One that waits may notice the stop signal or the flag. -/
def next (c : Cache) (seesStop : Bool) : Waiting → Waiting
  | looking [] => answered true
  | looking (kind :: left) => if c.isSynced kind then looking left else waiting kind left
  | waiting kind left =>
    if seesStop then if c.stopped then checking kind left else waiting kind left
    else if c.isSynced kind then looking (kind :: left) else waiting kind left
  | checking kind left => if c.isSynced kind then looking left else answered false
  | answered answer => answered answer

/-- **The steps of a call are those of the cache's answer**: while nothing else happens, a call
comes to where it can go no further, and then it has the answer that the cache gives, if any. -/
theorem exists_rest (c : Cache) (kinds : List Kind) :
    ∃ n, ((next c true)^[n] (.looking kinds)).answer? = c.syncAnswer? kinds ∧
      ∀ seesStop, ((next c true)^[n] (.looking kinds)).next c seesStop =
        (next c true)^[n] (.looking kinds) := by
  induction kinds with
  | nil => exact ⟨1, rfl, fun _ ↦ rfl⟩
  | cons kind rest ih =>
    by_cases hk : c.isSynced kind = true
    · obtain ⟨n, hn⟩ := ih
      refine ⟨n + 1, ?_⟩
      have hnext : next c true (.looking (kind :: rest)) = .looking rest := by simp [next, hk]
      rw [Function.iterate_succ_apply, hnext, Cache.syncAnswer?, if_pos hk]
      exact hn
    · have hfirst : next c true (.looking (kind :: rest)) = .waiting kind rest := by
        simp [next, hk]
      rw [Cache.syncAnswer?, if_neg hk]
      by_cases hs : c.stopped = true
      · have hthird : (next c true)^[3] (.looking (kind :: rest)) = .answered false := by
          simp [Function.iterate_succ_apply, next, hs, hk]
        refine ⟨3, ?_⟩
        rw [hthird, if_pos hs]
        exact ⟨rfl, fun _ ↦ rfl⟩
      · refine ⟨1, ?_⟩
        rw [Function.iterate_one, hfirst, if_neg hs]
        exact ⟨rfl, fun seesStop ↦ by cases seesStop <;> simp [next, hs, hk]⟩

/-- Whether an answer is right: all first listings have been applied; or one has not, and the stop
signal was given. -/
def Right (c : Cache) (kinds : List Kind) : Bool → Prop
  | true => ∀ kind ∈ kinds, c.isSynced kind = true
  | false => c.stopped = true ∧ ∃ kind ∈ kinds, c.isSynced kind = false

/-- What a call knows that waits for the entries of some kinds. -/
structure Sound (c : Cache) (kinds : List Kind) (p : Waiting) : Prop where
  housed : ∀ kind ∈ kinds, kind ∈ c.entries
  left : p.left ⊆ kinds
  /-- The flags that it found set are set. -/
  found : p.answer? = none → ∀ kind ∈ kinds, kind ∈ p.left ∨ c.isSynced kind = true
  /-- It looks once more only after the stop signal. -/
  stopped : ∀ kind rest, p = .checking kind rest → c.stopped = true

variable {c : Cache} {kinds : List Kind} {p : Waiting}

theorem sound_looking (h : ∀ kind ∈ kinds, kind ∈ c.entries) : Sound c kinds (.looking kinds) where
  housed := h
  left := List.Subset.refl _
  found _ _ hk := .inl hk
  stopped := nofun

/-- A flag that is found set is passed over. -/
theorem Sound.pass (h : Sound c kinds p) {kind : Kind} {rest : List Kind}
    (hp : p.answer? = none) (hleft : p.left = kind :: rest) (hk : c.isSynced kind = true) :
    Sound c kinds (.looking rest) where
  housed := h.housed
  left := fun k hrest ↦ h.left (hleft ▸ List.mem_cons_of_mem _ hrest)
  found _ k hkinds := by
    obtain hk' | hk' := h.found hp k hkinds
    · rw [hleft, List.mem_cons] at hk'
      obtain rfl | hrest := hk'
      · exact .inr hk
      · exact .inl hrest
    · exact .inr hk'
  stopped := nofun

/-- A call that stays with the same entries knows what it knew. -/
theorem Sound.stay (h : Sound c kinds p) {p' : Waiting} (hp : p.answer? = none)
    (hleft : p'.left = p.left) (hstopped : ∀ kind rest, p' = .checking kind rest →
      c.stopped = true) : Sound c kinds p' where
  housed := h.housed
  left := hleft ▸ h.left
  found _ := hleft ▸ h.found hp
  stopped := hstopped

theorem Sound.next (h : Sound c kinds p) (seesStop : Bool) :
    Sound c kinds (p.next c seesStop) := by
  rcases p with (_ | ⟨kind, rest⟩) | ⟨kind, rest⟩ | ⟨kind, rest⟩ | answer
  · exact ⟨h.housed, List.nil_subset _, nofun, nofun⟩
  · rw [Waiting.next]
    split
    · next hk => exact h.pass rfl rfl hk
    · exact h.stay rfl rfl nofun
  · rw [Waiting.next]
    split
    · split
      · next hs => exact h.stay rfl rfl fun _ _ _ ↦ hs
      · exact h
    · split
      · exact h.stay rfl rfl nofun
      · exact h
  · rw [Waiting.next]
    split
    · next hk => exact h.pass rfl rfl hk
    · exact ⟨h.housed, List.nil_subset _, nofun, nofun⟩
  · exact h

/-- **The answer of a call is right when it is given.** -/
theorem Sound.right (h : Sound c kinds p) (hp : p.answer? = none) {seesStop answer : Bool}
    (ha : p.next c seesStop = .answered answer) : Right c kinds answer := by
  rcases p with (_ | ⟨kind, rest⟩) | ⟨kind, rest⟩ | ⟨kind, rest⟩ | answer
  · -- no entry is left
    cases ha
    exact fun k hk ↦ (h.found rfl k hk).resolve_left List.not_mem_nil
  · rw [Waiting.next] at ha
    split at ha <;> cases ha
  · rw [Waiting.next] at ha
    split at ha <;> split at ha <;> cases ha
  · -- the flag was not set when the call looked once more
    rw [Waiting.next] at ha
    split at ha
    · cases ha
    · next hk =>
      cases ha
      exact ⟨h.stopped kind rest rfl, kind, h.left List.mem_cons_self, eq_false_of_ne_true hk⟩
  · cases hp

/-- What a call knows stays true when the cache goes on and takes no flag back. -/
theorem Sound.mono (h : Sound c kinds p) {c' : Cache}
    (hhoused : ∀ kind ∈ c.entries, kind ∈ c'.entries)
    (hsynced : ∀ kind, c.isSynced kind = true → c'.isSynced kind = true)
    (hstopped : c.stopped = true → c'.stopped = true) : Sound c' kinds p where
  housed kind hk := hhoused kind (h.housed kind hk)
  left := h.left
  found hp kind hk := (h.found hp kind hk).imp_right (hsynced kind)
  stopped kind rest hp := hstopped (h.stopped kind rest hp)

end Waiting

/-! ### The flags that callers see -/

namespace Traffic

variable {w : Traffic}

theorem mem_act (ho : w.Orderly) (a : Action) {kind : Kind} (hk : kind ∈ w.cache.entries) :
    kind ∈ (w.act a).cache.entries := by
  have hentered : w.entered <+: (w.act a).entered := w.entered_actAll [a]
  rw [ho.mem] at hk
  rw [(ho.step (step_act w a)).mem]
  exact (hentered.map (·.2)).subset hk

/-- The flag of an entry in the map is the one that callers see. -/
theorem isSynced_eq (ho : w.Orderly) {kind : Kind} (hk : kind ∈ w.cache.entries) :
    w.cache.isSynced kind = w.synced kind := by
  have hentry : w.entryOf? kind = w.cache.entries[kind]? := by
    rcases hd : w.draft? with - | d
    · exact entryOf?_of_none hd kind
    · refine (entryOf?_of_draft hd kind).trans (if_neg ?_)
      rintro rfl
      exact ho.not_mem_of_draft hd hk
  rw [Cache.isSynced, synced, hentry]
  cases w.cache.entries[kind]? <;> rfl

theorem isSynced_act (ho : w.Orderly) (a : Action) {kind : Kind}
    (h : w.cache.isSynced kind = true) : (w.act a).cache.isSynced kind = true := by
  have hk : kind ∈ w.cache.entries := by
    by_contra hnot
    rw [Cache.isSynced, Std.ExtTreeMap.getElem?_eq_none hnot] at h
    cases h
  rw [isSynced_eq (ho.step (step_act w a)) (mem_act ho a hk), synced_act, ← isSynced_eq ho hk, h]
  rfl

end Traffic

/-! ### Runs -/

/-- A call that waits for the first listings of some kinds. -/
structure Wait where
  kinds : List Kind
  place : Waiting

/-- A cache with calls that wait for first listings, and the listings that its loops took in. -/
structure Awaiting where
  traffic : Traffic
  /-- The calls, in the order in which they began. -/
  waits : List Wait := []
  listings : List (Kind × Listing) := []

namespace Awaiting

/-- A new cache, before anything happened. -/
def start (config : Config) (subscribers : Subscribers) : Awaiting where
  traffic := .start config subscribers

/-- What can happen. -/
inductive Action where
  | cache (a : Traffic.Action)
  /-- A call begins that waits for the entry of a kind, which is in the map. -/
  | waitFor (kind : Kind)
  /-- A call begins that waits for all entries in the map, in any order. -/
  | waitForAll (order : List Kind)
  /-- A call goes on. -/
  | goOn (i : Nat) (seesStop : Bool)

/-- The kinds that a call is to wait for which begins. It waits for an entry that is in the map; or
for all of them, when no other call holds the map. -/
def concerned? (w : Traffic) : Action → Option (List Kind)
  | .waitFor kind => if w.cache.entries.contains kind then some [kind] else none
  | .waitForAll order =>
    if w.draft?.isNone && order.isPerm w.cache.kinds then some order else none
  | _ => none

/-- One action. -/
def act (s : Awaiting) (a : Action) : Awaiting :=
  match a with
  | .cache a =>
    { s with
      traffic := s.traffic.act a
      listings := s.listings ++ (s.traffic.listed? a).toList }
  | .goOn i seesStop =>
    { s with waits := s.waits.modify i fun q ↦
      { q with place := q.place.next s.traffic.cache seesStop } }
  | _ =>
    { s with waits := s.waits ++
      ((concerned? s.traffic a).map fun kinds ↦ { kinds, place := .looking kinds }).toList }

/-- Some actions, one after another. -/
def actAll (s : Awaiting) (actions : List Action) : Awaiting := actions.foldl act s

@[simp] theorem actAll_append (s : Awaiting) (before after : List Action) :
    s.actAll (before ++ after) = (s.actAll before).actAll after :=
  List.foldl_append

variable {s : Awaiting} {a : Action} {i : Nat} {q : Wait}

/-- What a call is to wait for is in the map, and for a call that waits for all entries it is all
that is there. -/
theorem concerned?_eq_some {w : Traffic} {kinds : List Kind} (h : concerned? w a = some kinds) :
    (∃ kind ∈ w.cache.entries, a = .waitFor kind ∧ kinds = [kind]) ∨
      (a = .waitForAll kinds ∧ ∀ kind, kind ∈ kinds ↔ kind ∈ w.cache.entries) := by
  cases a with
  | waitFor kind =>
    rw [concerned?] at h
    split at h
    · next hk =>
      cases h
      exact .inl ⟨kind, Std.ExtTreeMap.contains_iff_mem.1 hk, rfl, rfl⟩
    · cases h
  | waitForAll order =>
    rw [concerned?] at h
    split at h
    · next hk =>
      cases h
      obtain ⟨-, hperm⟩ := Bool.and_eq_true_iff.1 hk
      refine .inr ⟨rfl, fun kind ↦ ?_⟩
      rw [(List.isPerm_iff.1 hperm).mem_iff]
      exact Std.ExtTreeMap.mem_keys
    · cases h
  | _ => cases h

/-- **Where a call can come from**: it was there before, and stands where it stood or went on; or it
begins. -/
theorem waits_act (hq : (s.act a).waits[i]? = some q) :
    (∃ q₀, s.waits[i]? = some q₀ ∧ q₀.kinds = q.kinds ∧ (q.place = q₀.place ∨
      ∃ seesStop, a = .goOn i seesStop ∧ q.place = q₀.place.next s.traffic.cache seesStop)) ∨
    (s.waits.length = i ∧ concerned? s.traffic a = some q.kinds ∧ q.place = .looking q.kinds) := by
  -- a call that may begin
  have hbegin (hwaits : (s.act a).waits = s.waits ++ ((concerned? s.traffic a).map
      fun kinds ↦ { kinds, place := .looking kinds }).toList) : s.waits[i]? = some q ∨
      (s.waits.length = i ∧ concerned? s.traffic a = some q.kinds ∧
        q.place = .looking q.kinds) := by
    rw [hwaits, List.getElem?_append] at hq
    split at hq
    · exact .inl hq
    · rcases hkinds : concerned? s.traffic a with - | kinds
      · simp [hkinds] at hq
      · rw [hkinds, Option.map_some, Option.toList_some, List.getElem?_singleton] at hq
        split at hq
        · cases hq
          exact .inr ⟨by omega, rfl, rfl⟩
        · cases hq
  cases a with
  | cache a => exact .inl ⟨q, hq, rfl, .inl rfl⟩
  | goOn j seesStop =>
    have hmodify : (s.act (.goOn j seesStop)).waits[i]? = (s.waits[i]?).map fun q ↦
        if j = i then { q with place := q.place.next s.traffic.cache seesStop } else q :=
      List.getElem?_modify _ _ _ _
    rw [hmodify] at hq
    obtain ⟨q₀, hq₀, rfl⟩ := Option.map_eq_some_iff.1 hq
    refine .inl ⟨q₀, hq₀, ?_⟩
    split
    · next hj =>
      subst hj
      exact ⟨rfl, .inr ⟨seesStop, rfl, rfl⟩⟩
    · exact ⟨rfl, .inl rfl⟩
  | _ => exact (hbegin rfl).imp_left fun h ↦ ⟨q, h, rfl, .inl rfl⟩

/-- What holds of the calls and the flags at all times. -/
structure Sound (s : Awaiting) : Prop where
  orderly : s.traffic.Orderly
  announced : s.traffic.Announced s.listings
  waits : ∀ q ∈ s.waits, q.place.Sound s.traffic.cache q.kinds

theorem sound_start (config : Config) (subscribers : Subscribers) :
    (start config subscribers).Sound where
  orderly := Traffic.orderly_start config subscribers
  announced := Traffic.announced_start config subscribers
  waits := nofun

theorem Sound.act (h : s.Sound) (a : Action) : (s.act a).Sound := by
  have hwaits (q : Wait) (hq : q ∈ (s.act a).waits) :
      q.place.Sound s.traffic.cache q.kinds := by
    obtain ⟨i, hi⟩ := List.mem_iff_getElem?.1 hq
    obtain ⟨q₀, hq₀, hkinds, hplace⟩ | ⟨-, hconcerned, hplace⟩ := waits_act hi
    · have hsound := h.waits q₀ (List.mem_of_getElem? hq₀)
      rw [hkinds] at hsound
      obtain hplace | ⟨seesStop, -, hplace⟩ := hplace
      · exact hplace ▸ hsound
      · exact hplace ▸ hsound.next seesStop
    · rw [hplace]
      refine Waiting.sound_looking fun kind hk ↦ ?_
      obtain ⟨k, hmem, -, hkinds⟩ | ⟨-, hall⟩ := concerned?_eq_some hconcerned
      · rw [hkinds, List.mem_singleton] at hk
        exact hk ▸ hmem
      · exact (hall kind).1 hk
  cases a with
  | cache a =>
    exact
      { orderly := h.orderly.step (Traffic.step_act s.traffic a)
        announced := h.announced.act a
        waits := fun q hq ↦ (hwaits q hq).mono (fun kind ↦ Traffic.mem_act h.orderly a)
          (fun kind ↦ Traffic.isSynced_act h.orderly a)
          fun hs ↦ ((Traffic.step_act s.traffic a).of_stopped hs).1 }
  | _ => exact ⟨h.orderly, h.announced, hwaits⟩

theorem sound_actAll (config : Config) (subscribers : Subscribers) (actions : List Action) :
    ((start config subscribers).actAll actions).Sound := by
  induction actions using List.reverseRecOn with
  | nil => exact sound_start config subscribers
  | append_singleton actions a ih =>
    rw [actAll_append]
    exact ih.act a

/-! ### The flag of an entry -/

/-- **A flag is never taken back.** -/
theorem synced_actAll {kind : Kind} (h : s.traffic.synced kind = true) (actions : List Action) :
    (s.actAll actions).traffic.synced kind = true := by
  induction actions generalizing s with
  | nil => exact h
  | cons a actions ih =>
    refine ih (s := s.act a) ?_
    cases a with
    | cache a =>
      show (s.traffic.act a).synced kind = true
      rw [Traffic.synced_act, h]
      rfl
    | _ => exact h

theorem listings_actAll (s : Awaiting) (actions : List Action) :
    s.listings <+: (s.actAll actions).listings := by
  induction actions generalizing s with
  | nil => exact List.prefix_rfl
  | cons a actions ih =>
    refine List.IsPrefix.trans ?_ (ih (s.act a))
    cases a with
    | cache a => exact List.prefix_append _ _
    | _ => exact List.prefix_rfl

/-- **It is set in the step in which the loop takes in its first listing**, and with that listing
the store is filled. -/
theorem listed_of_turn (h : s.Sound) {kind : Kind} (hbefore : s.traffic.synced kind = false)
    (hafter : (s.act a).traffic.synced kind = true) :
    ∃ now l e, a = .cache (.react kind now (.listed (.ok l))) ∧
      (kind, l) ∈ firstOfEach (s.act a).listings ∧
      (s.act a).traffic.entryOf? kind = some e ∧ e.synced = true ∧
      e.store = (Store.replace {} (Signal.objects l.payloads)).1 := by
  cases a with
  | cache a =>
    have hlisting : (s.traffic.listing? a kind).isSome = true := by
      have hstep := s.traffic.synced_act a kind
      rwa [show (s.traffic.act a).synced kind = true from hafter, hbefore, Bool.false_or,
        eq_comm] at hstep
    obtain ⟨l, hl⟩ := Option.isSome_iff_exists.1 hlisting
    have hlisted := Traffic.listing?_eq_some.1 hl
    obtain ⟨now, rfl⟩ := Traffic.react_of_listed hlisted
    obtain ⟨e, he⟩ := Traffic.entryOf?_of_listing h.announced.primed hbefore hl
    have hlistings : (s.act (.cache (.react kind now (.listed (.ok l))))).listings =
        s.listings ++ [(kind, l)] := by
      rw [act, hlisted, Option.toList_some]
    have hnew : kind ∉ (firstOfEach s.listings).map (·.1) := by
      rw [mem_firstOfEach, ← h.announced.synced, hbefore]
      nofun
    refine ⟨now, l, e, rfl, ?_, he⟩
    rw [hlistings, firstOfEach_concat, if_neg hnew]
    exact List.mem_append_right _ (List.mem_singleton_self _)
  | _ =>
    have hsame : s.traffic.synced kind = true := hafter
    rw [hbefore] at hsame
    cases hsame

/-- A flag that is set was set with the first listing of the kind. -/
theorem exists_first_listing {config : Config} {subscribers : Subscribers} {actions : List Action}
    {kind : Kind} (h : ((start config subscribers).actAll actions).traffic.synced kind = true) :
    ∃ before now l after e,
      actions = before ++ .cache (.react kind now (.listed (.ok l))) :: after ∧
      (kind, l) ∈ firstOfEach ((start config subscribers).actAll actions).listings ∧
      ((start config subscribers).actAll before).traffic.synced kind = false ∧
      ((start config subscribers).actAll
        (before ++ [.cache (.react kind now (.listed (.ok l)))])).traffic.entryOf? kind = some e ∧
      e.synced = true ∧ e.store = (Store.replace {} (Signal.objects l.payloads)).1 := by
  have hstart : ¬ (start config subscribers).traffic.synced kind = true :=
    mt ((Traffic.announced_start config subscribers).synced kind).1 List.not_mem_nil
  obtain ⟨before, a, after, rfl, hnot, hthen⟩ :=
    exists_turn (P := fun s : Awaiting ↦ s.traffic.synced kind = true) hstart h
  have hact : (start config subscribers).actAll (before ++ [a]) =
      ((start config subscribers).actAll before).act a := actAll_append _ _ _
  have hfalse : ((start config subscribers).actAll before).traffic.synced kind = false :=
    eq_false_of_ne_true hnot
  have htrue : ((start config subscribers).actAll (before ++ [a])).traffic.synced kind = true :=
    hthen
  have hsound := sound_actAll config subscribers before
  obtain ⟨now, l, e, ha, hfirst, he⟩ := listed_of_turn hsound hfalse (hact ▸ htrue)
  have hrun : (start config subscribers).actAll (before ++ a :: after) =
      ((start config subscribers).actAll (before ++ [a])).actAll after := by
    rw [← actAll_append, List.append_assoc]
    rfl
  obtain ⟨more, hmore⟩ := listings_actAll ((start config subscribers).actAll (before ++ [a])) after
  refine ⟨before, now, l, after, e, ha ▸ rfl, ?_, hfalse, ha ▸ hact ▸ he⟩
  rw [hrun, ← hmore, hact]
  exact (firstOfEach_append _ more).subset hfirst

/-! ### The course of a call -/

variable {s₀ : Awaiting}

/-- Every call began once. -/
theorem exists_begin {actions : List Action} (h₀ : s₀.waits = [])
    (hq : (s₀.actAll actions).waits[i]? = some q) :
    ∃ before a during, actions = before ++ a :: during ∧ (s₀.actAll before).waits.length = i ∧
      concerned? (s₀.actAll before).traffic a = some q.kinds := by
  induction actions using List.reverseRecOn generalizing q with
  | nil => simp [actAll, h₀] at hq
  | append_singleton actions a ih =>
    rw [actAll_append] at hq
    obtain ⟨q₁, hq₁, hkinds, -⟩ | ⟨hi, hconcerned, -⟩ := waits_act hq
    · obtain ⟨before, b, during, rfl, hbegin⟩ := ih hq₁
      exact ⟨before, b, during ++ [a], by simp, hkinds ▸ hbegin⟩
    · exact ⟨actions, a, [], rfl, hi, hconcerned⟩

/-- A call that was answered has been so before, or is answered in this step, which is its own. -/
theorem answered_act {answer : Bool} (hq : (s.act a).waits[i]? = some q)
    (ha : q.place = .answered answer) : s.waits[i]? = some q ∨
      ∃ q₁ seesStop, s.waits[i]? = some q₁ ∧ q₁.kinds = q.kinds ∧ q₁.place.answer? = none ∧
        a = .goOn i seesStop ∧ q₁.place.next s.traffic.cache seesStop = .answered answer := by
  obtain ⟨kinds, place⟩ := q
  cases ha
  obtain ⟨⟨_, p⟩, hq₁, rfl, hplace | ⟨seesStop, rfl, hplace⟩⟩ | ⟨-, -, hplace⟩ := waits_act hq
  · cases hplace
    exact .inl hq₁
  · cases p with
    | answered earlier =>
      cases hplace
      exact .inl hq₁
    | _ => exact .inr ⟨_, seesStop, hq₁, rfl, rfl, rfl, hplace.symm⟩
  · cases hplace

/-- A call that was answered was answered in a step of its own, and rightly. -/
theorem exists_return {config : Config} {subscribers : Subscribers} {actions : List Action}
    {answer : Bool} (hq : ((start config subscribers).actAll actions).waits[i]? = some q)
    (ha : q.place = .answered answer) :
    ∃ before a during seesStop after,
      actions = before ++ a :: (during ++ .goOn i seesStop :: after) ∧
      ((start config subscribers).actAll before).waits.length = i ∧
      concerned? ((start config subscribers).actAll before).traffic a = some q.kinds ∧
      let s := (start config subscribers).actAll (before ++ a :: during)
      (∃ q₁, s.waits[i]? = some q₁ ∧ q₁.place.answer? = none) ∧
      (s.act (.goOn i seesStop)).waits[i]? = some q ∧
      Waiting.Right s.traffic.cache q.kinds answer := by
  induction actions using List.reverseRecOn generalizing q with
  | nil => simp [actAll, start] at hq
  | append_singleton actions a ih =>
    rw [actAll_append] at hq
    obtain hq | ⟨q₁, seesStop, hq₁, hkinds, hnone, rfl, hanswer⟩ := answered_act hq ha
    · obtain ⟨before, b, during, seesStop, after, rfl, hcourse⟩ := ih hq ha
      exact ⟨before, b, during, seesStop, after ++ [a], by simp, hcourse⟩
    · obtain ⟨before, b, during, rfl, hi, hconcerned⟩ := exists_begin rfl hq₁
      have hsound := (sound_actAll config subscribers (before ++ b :: during)).waits q₁
        (List.mem_of_getElem? hq₁)
      exact ⟨before, b, during, seesStop, [], by simp, hi, hkinds ▸ hconcerned,
        ⟨q₁, hq₁, hnone⟩, hq, hkinds ▸ hsound.right hnone hanswer⟩

/-! ### All together -/

/-- **Sync means that a complete list was applied.** After any actions: -/
theorem sync_means_listed (config : Config) (subscribers : Subscribers) (actions : List Action) :
    let s₀ := start config subscribers
    let s := s₀.actAll actions
    -- the flag of an entry is not taken back
    (∀ kind more, s.traffic.synced kind = true → (s.actAll more).traffic.synced kind = true) ∧
    -- it was set when the loop took in its first listing, and the store was filled with that
    (∀ kind, s.traffic.synced kind = true → ∃ before now l after e,
      actions = before ++ .cache (.react kind now (.listed (.ok l))) :: after ∧
      (kind, l) ∈ firstOfEach s.listings ∧ (s₀.actAll before).traffic.synced kind = false ∧
      (s₀.actAll (before ++ [.cache (.react kind now (.listed (.ok l)))])).traffic.entryOf? kind =
        some e ∧ e.synced = true ∧ e.store = (Store.replace {} (Signal.objects l.payloads)).1) ∧
    -- before that nothing is held
    (∀ kind e, s.traffic.entryOf? kind = some e → e.synced = false → e.store = {}) ∧
    -- the kinds whose flag is set are those with a listing, and the first one is reported once
    (∀ kind, s.traffic.synced kind = true ↔ kind ∈ (firstOfEach s.listings).map (·.1)) ∧
    ((firstOfEach s.listings).map (·.1)).Nodup ∧
    s.traffic.published [.cacheSynced] = (firstOfEach s.listings).map
      (fun x ↦ .cacheSynced x.1 (Signal.objects x.2.payloads).length) ∧
    -- callers see the flags of the entries in the map
    (∀ kind ∈ s.traffic.cache.entries,
      s.traffic.cache.isSynced kind = s.traffic.synced kind) ∧
    -- a call that waits, for one entry or for all that are in the map when it begins, is answered
    -- true when all their flags are set, and false when one is not after the stop signal
    ∀ i q answer, s.waits[i]? = some q → q.place = .answered answer →
      ∃ before a during seesStop after,
        actions = before ++ a :: (during ++ .goOn i seesStop :: after) ∧
        (s₀.actAll before).waits.length = i ∧
        ((∃ kind ∈ (s₀.actAll before).traffic.cache.entries, a = .waitFor kind ∧
            q.kinds = [kind]) ∨
          a = .waitForAll q.kinds ∧
            ∀ kind, kind ∈ q.kinds ↔ kind ∈ (s₀.actAll before).traffic.cache.entries) ∧
        let t := s₀.actAll (before ++ a :: during)
        (∃ q₁, t.waits[i]? = some q₁ ∧ q₁.place.answer? = none) ∧
        (t.act (.goOn i seesStop)).waits[i]? = some q ∧
        Waiting.Right t.traffic.cache q.kinds answer := by
  intro s₀ s
  have hsound : s.Sound := sound_actAll config subscribers actions
  refine ⟨fun kind more h ↦ synced_actAll h more, fun kind h ↦ ?_, fun kind e he hs ↦ ?_,
    fun kind ↦ ?_, nodup_firstOfEach _, hsound.announced.published,
    fun kind ↦ Traffic.isSynced_eq hsound.orderly, fun i q answer hq ha ↦ ?_⟩
  · exact exists_first_listing h
  · exact ((hsound.announced.primed kind e he).2 hs).1
  · rw [hsound.announced.synced, mem_firstOfEach]
  · obtain ⟨before, a, during, seesStop, after, hactions, hi, hconcerned, hreturn⟩ :=
      exists_return hq ha
    exact ⟨before, a, during, seesStop, after, hactions, hi, concerned?_eq_some hconcerned,
      hreturn⟩

/-- Two kinds are asked for, one is listed, and then the stop signal is given. A call waits for the
first kind, and another one for both. -/
def halfListed : List Action :=
  let kind := Resource.kind ConfigMap
  let other : Kind := ⟨"", "v1", "Node"⟩
  let listing : Listing := ⟨[.object [("metadata", .object [("name", .string "a")])], .null], none⟩
  [.cache (.inquire kind), .cache (.proceed 0), .cache (.proceed 0), .cache (.proceed 0),
    .cache (.proceed 0), .cache (.inquire other), .cache (.proceed 1), .cache (.proceed 1),
    .cache (.proceed 1), .cache (.proceed 1), .waitFor kind, .waitForAll [other, kind],
    .goOn 0 false, .goOn 1 false, .cache (.react kind 0 .started), .cache (.react other 0 .started),
    .cache (.react kind 0 (.listed (.ok listing))), .goOn 0 false, .goOn 0 false, .goOn 0 false,
    .cache .shutdown, .goOn 1 true, .goOn 1 true]

/-- One is answered true, the other one false, and one first listing is reported, of one object. -/
theorem sync_means_listed_of_stop :
    ((start {} {}).actAll halfListed).waits.map (·.place.answer?) = [some true, some false] ∧
    ((start {} {}).actAll halfListed).traffic.published [.cacheSynced] =
      [.cacheSynced (Resource.kind ConfigMap) 1] := by
  obtain ⟨-, -, -, -, -, hpublished, -⟩ := sync_means_listed {} {} halfListed
  exact ⟨by decide +kernel, hpublished.trans (by decide +kernel)⟩

end Awaiting

end Informer
