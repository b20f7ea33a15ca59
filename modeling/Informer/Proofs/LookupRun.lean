import Informer.Proofs.Collection
import Informer.Resource.ConfigMap

/-!
# One entry for each kind

Any number of calls ask a cache for entries, while other calls shut it down and everything else goes
on. `Orderly` is what every action keeps: an entry is created for a kind that has none, by a call
that holds the map until the entry is in it, so there is one entry and one loop for each kind, and a
call that is answered with an entry is answered with that one. An entry that is in the map stays
there (`entered_actAll`), and a call that began after the stop signal is refused (`late_actAll`).
The main result, `one_entry_per_kind`, adds what the shutdown collects (`Collected`).
-/

namespace Informer

namespace Traffic

variable {w w' : Traffic}

/-! ### Published events -/

/-- The events with some topics that were published. -/
def published (w : Traffic) (topics : List Topic) : List RuntimeEvent :=
  w.events.filter (topics.contains ·.topic)

theorem published_append {es : List RuntimeEvent} (h : w'.events = w.events ++ es)
    (topics : List Topic) :
    w'.published topics = w.published topics ++ es.filter (topics.contains ·.topic) := by
  rw [published, h, List.filter_append, published]

theorem Moves.published {given : List (Kind × Nat × Notification)} (h : w.Moves w' given)
    {topics : List Topic} (ht : topics ⊆ Topic.milestones) :
    w'.published topics = w.published topics := by
  obtain ⟨effects, hroutine, hevents⟩ := h.events
  rw [published_append hevents, hroutine.filter_eq_nil ht, List.append_nil]

/-! ### Entries and the calls that are answered with them -/

theorem Moves.draft_eq {given : List (Kind × Nat × Notification)} (h : w.Moves w' given) :
    w'.draft?.map (fun d ↦ (d.call, d.kind)) = w.draft?.map fun d ↦ (d.call, d.kind) := by
  rcases h.draft_cases with ⟨hd, hd'⟩ | ⟨d, d', hd, hd', hmoves⟩
  · rw [hd, hd']
  · rw [hd, hd', Option.map_some, Option.map_some, hmoves.call, hmoves.kind]

/-- What is the same for the entries that were created, the entries in the map, and the calls that
created them or were answered with them. -/
structure Orderly (w : Traffic) : Prop where
  opened : w.opened = w.entered ++ (w.draft?.map fun d ↦ (d.call, d.kind)).toList
  nodup : (w.opened.map (·.2)).Nodup
  mem : ∀ kind, kind ∈ w.cache.entries ↔ kind ∈ w.entered.map (·.2)
  creators : ∀ kind call, w.creators[kind]? = some call ↔ (call, kind) ∈ w.entered
  watched : w.published [.watchStarted] = w.entered.map fun x ↦ .watchStarted x.2
  /-- The call that holds the map goes on where it created the entry. -/
  drafted : ∀ d, w.draft? = some d →
    ∃ q, w.inquiries[d.call]? = some q ∧ q.place = .creating ∧ q.kind = d.kind
  answered : ∀ q ∈ w.inquiries, q.place = .answered (.ok ()) →
    ∃ call, q.answer? = some call ∧ (call, q.kind) ∈ w.entered

theorem orderly_start (config : Config) (subscribers : Subscribers) :
    (start config subscribers).Orderly where
  opened := rfl
  nodup := List.nodup_nil
  mem kind := by simp [start, Cache.new]
  creators kind call := by simp [start]
  watched := rfl
  drafted := nofun
  answered := nofun

/-- Some entry of the kind was put into the map when there is one. -/
theorem Orderly.exists_creator (h : w.Orderly) {kind : Kind} (hk : kind ∈ w.cache.entries) :
    ∃ call, w.creators[kind]? = some call ∧ (call, kind) ∈ w.entered := by
  obtain ⟨⟨call, kind⟩, hmem, rfl⟩ := List.mem_map.1 ((h.mem kind).1 hk)
  exact ⟨call, (h.creators kind call).2 hmem, hmem⟩

theorem Orderly.of_moves (h : w.Orderly) {given : List (Kind × Nat × Notification)}
    (hm : w.Moves w' given) : w'.Orderly where
  opened := by rw [hm.opened, hm.entered, hm.draft_eq, h.opened]
  nodup := hm.opened ▸ h.nodup
  mem kind := by rw [hm.cache.mem, hm.entered, h.mem]
  creators kind call := by rw [hm.creators, hm.entered, h.creators]
  watched := by rw [hm.published (by decide), hm.entered, h.watched]
  drafted d' hd' := by
    obtain ⟨-, hnone⟩ | ⟨d, d₁, hd, hd₁, hmoves⟩ := hm.draft_cases
    · rw [hnone] at hd'
      cases hd'
    · cases hd₁.symm.trans hd'
      rw [hm.inquiries, hmoves.call, hmoves.kind]
      exact h.drafted d hd
  answered := by
    rw [hm.inquiries, hm.entered]
    exact h.answered

/-- A step of the cache that leaves the map as it is and starts no watch. -/
theorem Orderly.take (h : w.Orderly) {result : Cache × List Effect}
    (hk : w.cache.Keeps result.1 [])
    (he : (Effect.events result.2).filter ([Topic.watchStarted].contains ·.topic) = []) :
    (w.take result).Orderly :=
  { h with
    mem := fun kind ↦ (hk.mem kind).trans (h.mem kind)
    watched := by
      have hevents : (w.take result).events = w.events ++ Effect.events result.2 := rfl
      rw [published_append hevents, he, List.append_nil]
      exact h.watched }

theorem Orderly.inquire (h : w.Orderly) (kind : Kind) :
    Orderly { w with inquiries := w.inquiries ++ [{ kind }] } :=
  { h with
    drafted := fun d hd ↦ by
      obtain ⟨q, hq, hplace⟩ := h.drafted d hd
      exact ⟨q, List.getElem?_append_left (List.getElem?_eq_some_iff.1 hq).1 ▸ hq, hplace⟩
    answered := fun q hq hplace ↦ by
      rcases List.mem_append.1 hq with hq | hq
      · exact h.answered q hq hplace
      · cases List.mem_singleton.1 hq
        cases hplace }

theorem Orderly.look (h : w.Orderly) {i : Nat} {q : Inquiry} {place : Lookup} {answer? : Option Nat}
    (hi : w.inquiries[i]? = some q)
    (hdraft : ∀ d, w.draft? = some d → d.call = i → q.place ≠ .creating)
    (hfound : place = .answered (.ok ()) → answer? = w.creators[q.kind]? ∧
      (q.kind ∈ w.cache.entries ∨ q.place = .answered (.ok ()))) :
    Orderly { w with inquiries := w.inquiries.set i { q with place, answer? } } :=
  { h with
    drafted := fun d hd ↦ by
      obtain ⟨q₁, hq₁, hplace, hkind⟩ := h.drafted d hd
      have hne : i ≠ d.call := by
        rintro rfl
        rw [hi] at hq₁
        cases hq₁
        exact hdraft d hd rfl hplace
      exact ⟨q₁, (List.getElem?_set_ne hne).trans hq₁, hplace, hkind⟩
    answered := fun q₁ hq₁ hplace ↦ by
      rcases List.mem_or_eq_of_mem_set hq₁ with hq₁ | rfl
      · exact h.answered q₁ hq₁ hplace
      · obtain ⟨hentry, hk | hq⟩ := hfound hplace
        · obtain ⟨call, hcreator, hmem⟩ := h.exists_creator hk
          exact ⟨call, hentry.trans hcreator, hmem⟩
        · obtain ⟨call, -, hmem⟩ := h.answered q (List.mem_of_getElem? hi) hq
          exact ⟨call, hentry.trans ((h.creators _ _).2 hmem), hmem⟩ }

theorem Orderly.create (h : w.Orderly) {i : Nat} {q : Inquiry} (hi : w.inquiries[i]? = some q)
    (hq : q.place = .creating) (hd : w.draft? = none) (hk : q.kind ∉ w.cache.entries) :
    (w.create i q).Orderly := by
  have hopened : w.opened = w.entered := by rw [h.opened, hd]; exact List.append_nil _
  exact
    { h with
      opened := congrArg (· ++ [(i, q.kind)]) hopened
      nodup := by
        have hnew : q.kind ∉ w.opened.map (·.2) := by rwa [hopened, ← h.mem]
        show ((w.opened ++ [(i, q.kind)]).map (·.2)).Nodup
        rw [List.map_append, List.map_singleton]
        exact List.nodup_append.2 ⟨h.nodup, List.pairwise_singleton _ _, by
          intro x hx y hy
          rw [List.mem_singleton.1 hy]
          rintro rfl
          exact hnew hx⟩
      drafted := fun d hd' ↦ by
        cases hd'
        exact ⟨q, hi, hq, rfl⟩ }

/-- The kind of an entry that is not in the map yet has no other entry. -/
theorem Orderly.not_mem_of_draft (h : w.Orderly) {d : Draft} (hd : w.draft? = some d) :
    d.kind ∉ w.cache.entries := by
  intro hk
  have hnodup := h.nodup
  rw [h.opened, hd, List.map_append, List.nodup_append] at hnodup
  exact hnodup.2.2 _ ((h.mem _).1 hk) _ List.mem_cons_self rfl

theorem Orderly.enter (h : w.Orderly) {d : Draft} {q : Inquiry}
    (hi : w.inquiries[d.call]? = some q) (hd : w.draft? = some d) : (w.enter d q).Orderly := by
  obtain ⟨q₁, hq₁, -, hkind⟩ := h.drafted d hd
  rw [hi] at hq₁
  cases hq₁
  have hopened : w.opened = w.entered ++ [(d.call, d.kind)] := by rw [h.opened, hd]; rfl
  have hfresh : ∀ call, (call, d.kind) ∉ w.entered := fun call hmem ↦
    h.not_mem_of_draft hd ((h.mem _).2 (List.mem_map_of_mem hmem))
  exact
    { opened := hopened.trans (List.append_nil _).symm
      nodup := h.nodup
      mem := fun kind ↦ by
        show kind ∈ w.cache.entries.insert d.kind d.entry ↔
          kind ∈ (w.entered ++ [(d.call, d.kind)]).map (·.2)
        rw [Kind.mem_insert, h.mem, List.map_append, List.mem_append, List.map_singleton,
          List.mem_singleton, or_comm, eq_comm]
      creators := fun kind call ↦ by
        show (w.creators.insert d.kind d.call)[kind]? = some call ↔
          (call, kind) ∈ w.entered ++ [(d.call, d.kind)]
        rw [Kind.getElem?_insert, List.mem_append, List.mem_singleton, Prod.mk.injEq]
        by_cases hk : d.kind = kind
        · subst hk
          rw [if_pos rfl, Option.some.injEq]
          constructor
          · rintro rfl
            exact .inr ⟨rfl, rfl⟩
          · rintro (hmem | ⟨rfl, -⟩)
            · exact absurd hmem (hfresh call)
            · rfl
        · rw [if_neg hk, h.creators]
          exact ⟨.inl, fun hmem ↦ hmem.resolve_right fun hlast ↦ hk hlast.2.symm⟩
      watched := by
        have hevents : (w.enter d q).events = w.events ++ [.watchStarted d.kind] := rfl
        rw [published_append hevents, h.watched]
        show _ = (w.entered ++ [(d.call, d.kind)]).map _
        rw [List.map_append]
        rfl
      drafted := nofun
      answered := fun q₁ hq₁ hplace ↦ by
        rcases List.mem_or_eq_of_mem_set hq₁ with hq₁ | rfl
        · obtain ⟨call, hentry, hmem⟩ := h.answered q₁ hq₁ hplace
          exact ⟨call, hentry, List.mem_append_left _ hmem⟩
        · exact ⟨d.call, rfl, List.mem_append_right _ (hkind ▸ List.mem_cons_self)⟩ }

theorem Orderly.step (h : w.Orderly) {a : Action} (hs : Step w a w') : w'.Orderly := by
  cases hs with
  | moves hm => exact h.of_moves hm
  | inquire kind => exact h.inquire kind
  | look hi hdraft hfound => exact h.look hi hdraft hfound
  | create hi hq hd hk => exact h.create hi hq hd hk
  | enter hi hd => exact h.enter hi hd
  | request _ hkeeps _ hevents => exact h.take hkeeps (by rw [hevents]; rfl)
  | refuse => exact { h with }
  | goOn _ hkeeps _ hstage hroutine hevents =>
    refine h.take hkeeps ?_
    rw [hevents, List.filter_append, hroutine.filter_eq_nil (by decide), List.nil_append]
    cases hstage <;> rfl

theorem orderly_actAll (config : Config) (subscribers : Subscribers) (actions : List Action) :
    ((start config subscribers).actAll actions).Orderly :=
  actAll_of_step (fun _ _ _ hs h ↦ h.step hs) (orderly_start config subscribers) actions

/-- An entry that is in the map stays there. -/
theorem entered_actAll (w : Traffic) (actions : List Action) :
    w.entered <+: (w.actAll actions).entered := by
  refine actAll_of_step (P := fun w' ↦ w.entered <+: w'.entered) (fun w₁ _ w₂ hs h ↦ ?_)
    List.prefix_rfl actions
  cases hs with
  | moves hm => exact hm.entered ▸ h
  | enter => exact h.trans (List.prefix_append _ _)
  | _ => exact h

/-- A call that holds the map goes on. -/
theorem entered_proceed (h : w.Orderly) {d : Draft} (hd : w.draft? = some d) :
    (w.act (.proceed d.call)).entered = w.opened := by
  obtain ⟨q, hq, hplace, -⟩ := h.drafted d hd
  have hact : w.act (.proceed d.call) = w.enter d q := by simp [act, hq, proceed, hplace, hd]
  rw [hact, h.opened, hd]
  rfl

/-! ### Calls that begin after the stop signal -/

/-- A call that was refused because of the stop signal. -/
def refused (kind : Kind) : Inquiry := { kind, place := .answered (.error .stopped) }

/-- No other action than its own changes where a late call stands, and its own refuses it. -/
theorem Step.late {a : Action} (hs : Step w a w') (ho : w.Orderly)
    (hstopped : w.cache.stopped = true) {n : Nat} {q : Inquiry} (hn : w.inquiries[n]? = some q)
    (hq : q.place = .arriving ∨ q.place = .answered (.error .stopped)) :
    w'.inquiries[n]? = some q ∨ w'.inquiries[n]? = some (refused q.kind) := by
  cases hs with
  | moves hm => exact .inl (hm.inquiries ▸ hn)
  | inquire kind =>
    exact .inl ((List.getElem?_append_left (List.getElem?_eq_some_iff.1 hn).1).trans hn)
  | @look i q₁ place answer? hi _ _ hrefused =>
    by_cases hin : i = n
    · subst hin
      cases hn.symm.trans hi
      obtain ⟨rfl, rfl⟩ := hrefused hstopped hq
      exact .inr (List.getElem?_set_self (List.getElem?_eq_some_iff.1 hn).1)
    · exact .inl ((List.getElem?_set_ne hin).trans hn)
  | enter hi hd =>
    refine .inl ((List.getElem?_set_ne fun hcall ↦ ?_).trans hn)
    obtain ⟨q₁, hq₁, hplace, -⟩ := ho.drafted _ hd
    rw [hcall, hn] at hq₁
    cases hq₁
    simp [hplace] at hq
  | _ => exact .inl hn

theorem proceed_late (hstopped : w.cache.stopped = true) {n : Nat} {kind : Kind}
    (hn : w.inquiries[n]? = some { kind }) :
    (w.act (.proceed n)).inquiries[n]? = some (refused kind) := by
  have hact : w.act (.proceed n) = w.look n { kind } := by simp only [act, hn, proceed]
  have hlook : (w.look n { kind }).inquiries = w.inquiries.set n (refused kind) := by
    simp [look, Cache.lookup, hstopped, take, refused]
  rw [hact, hlook]
  exact List.getElem?_set_self (List.getElem?_eq_some_iff.1 hn).1

theorem refused_actAll (ho : w.Orderly) (hstopped : w.cache.stopped = true) {n : Nat} {kind : Kind}
    (hn : w.inquiries[n]? = some (refused kind)) (actions : List Action) :
    (w.actAll actions).inquiries[n]? = some (refused kind) := by
  have h := actAll_of_step (w := w)
    (P := fun w ↦ w.Orderly ∧ w.cache.stopped = true ∧ w.inquiries[n]? = some (refused kind))
    (fun _ _ _ hs ⟨ho, hstopped, hn⟩ ↦ ⟨ho.step hs, (hs.of_stopped hstopped).1,
      (hs.late ho hstopped hn (.inr rfl)).elim id id⟩) ⟨ho, hstopped, hn⟩ actions
  exact h.2.2

/-- A call that began after the stop signal is refused as soon as it goes on. -/
theorem late_actAll (ho : w.Orderly) (hstopped : w.cache.stopped = true) {n : Nat} {kind : Kind}
    (hn : w.inquiries[n]? = some { kind }) (actions : List Action) :
    (w.actAll actions).inquiries[n]? = some (refused kind) ∨
      ((w.actAll actions).inquiries[n]? = some { kind } ∧ .proceed n ∉ actions) := by
  induction actions generalizing w with
  | nil => exact .inr ⟨hn, List.not_mem_nil⟩
  | cons a actions ih =>
    have hs := step_act w a
    have hstopped' := (hs.of_stopped hstopped).1
    by_cases ha : a = .proceed n
    · subst ha
      exact .inl (refused_actAll (ho.step hs) hstopped' (proceed_late hstopped hn) actions)
    · obtain hn' | hn' := hs.late ho hstopped hn (.inl rfl)
      · refine (ih (ho.step hs) hstopped' hn').imp_right fun ⟨hlast, hnot⟩ ↦ ⟨hlast, ?_⟩
        exact List.not_mem_cons_of_ne_of_not_mem (Ne.symm ha) hnot
      · exact .inl (refused_actAll (ho.step hs) hstopped' hn' actions)

/-! ### All together -/

/-- **One entry and one loop for each kind, and the shutdown misses none.** After any actions: -/
theorem one_entry_per_kind (config : Config) (subscribers : Subscribers) (actions : List Action) :
    let w := (start config subscribers).actAll actions
    -- every entry that was created, with its loop, is the only one of its kind
    (w.opened.map (·.2)).Nodup ∧
    -- it is in the map, or will be as soon as the call that created it goes on
    w.opened = w.entered ++ (w.draft?.map fun d ↦ (d.call, d.kind)).toList ∧
    (∀ d, w.draft? = some d → (w.act (.proceed d.call)).entered = w.opened) ∧
    -- which is reported once
    w.published [.watchStarted] = w.entered.map (fun x ↦ .watchStarted x.2) ∧
    -- every call that is answered with an entry has the one of the kind, which stays in the map
    (∀ q ∈ w.inquiries, q.place = .answered (.ok ()) →
      ∃ call, q.answer? = some call ∧ (call, q.kind) ∈ w.opened ∧
        ∀ more, (w.actAll more).creators[q.kind]? = some call ∧
          q.kind ∈ (w.actAll more).cache.entries) ∧
    -- what the shutdown waits for has every loop that ever was or will be started
    (∀ tasks, w.cache.shutdown = .joining tasks → ∀ more, ∀ x ∈ (w.actAll more).opened,
      ∃ y ∈ tasks, y.1 = x.2 ∧ .reflector x.2 ∈ y.2) ∧
    -- after the stop signal no entry is created, and a call that begins is refused
    (w.cache.stopped = true → ∀ kind more,
      let n := w.inquiries.length
      let w' := (w.act (.inquire kind)).actAll more
      w'.opened = w.opened ∧
        (w'.inquiries[n]? = some { kind, place := .answered (.error .stopped) } ∨
          w'.inquiries[n]? = some { kind } ∧ .proceed n ∉ more)) := by
  intro w
  have ho : w.Orderly := orderly_actAll config subscribers actions
  obtain ⟨-, hcollected⟩ := collected_actAll config subscribers actions
  refine ⟨ho.nodup, ho.opened, fun d hd ↦ entered_proceed ho hd, ho.watched, fun q hq hplace ↦ ?_,
    fun tasks hjoining more x hx ↦ ?_, fun hstopped kind more ↦ ⟨?_, ?_⟩⟩
  · obtain ⟨call, hentry, hmem⟩ := ho.answered q hq hplace
    refine ⟨call, hentry, ho.opened ▸ List.mem_append_left _ hmem, fun more ↦ ?_⟩
    have ho' : (w.actAll more).Orderly := by
      have h := orderly_actAll config subscribers (actions ++ more)
      rwa [actAll_append] at h
    have hmem' := (entered_actAll w more).subset hmem
    exact ⟨(ho'.creators _ _).2 hmem', (ho'.mem _).2 (List.mem_map_of_mem hmem')⟩
  · have hc : w.cache.shutdown.collected? = some ([], tasks) := by rw [hjoining]; rfl
    have hg : w.Gathered [] tasks := hcollected [] tasks hc
    rw [(actAll_of_stopped (stopped_of_collected? hc) more).2.1, ho.opened, hg.free] at hx
    have hkind : x.2 ∈ w.cache.kinds :=
      Std.ExtTreeMap.mem_keys.2 ((ho.mem x.2).2 (List.mem_map_of_mem (by simpa using hx)))
    rw [← hg.kinds, List.append_nil] at hkind
    obtain ⟨y, hy, hyx⟩ := List.mem_map.1 hkind
    exact ⟨y, hy, hyx, hyx ▸ hg.loops y hy⟩
  · exact (actAll_of_stopped (w := w.act (.inquire kind)) hstopped more).2.1
  · have hn : (w.act (.inquire kind)).inquiries[w.inquiries.length]? = some { kind } :=
      List.getElem?_concat_length
    exact late_actAll (ho.inquire kind) hstopped hn more

/-- Two calls that race for a kind, with the stop signal given while the first one holds the map. -/
def race : List Action :=
  let kind := Resource.kind ConfigMap
  [.inquire kind, .inquire kind, .proceed 0, .proceed 1, .proceed 0, .proceed 1, .proceed 0,
    .shutdown, .proceed 1, .goOn false, .proceed 0, .proceed 1, .goOn false, .goOn false,
    .goOn false]

/-- Both are answered with the same entry, its loop is collected, and nothing more is created. -/
theorem one_entry_per_kind_of_race :
    let w := (start {} {}).actAll race
    w.inquiries.map (·.answer?) = [some 0, some 0] ∧
      w.cache.shutdown =
        .joining [(Resource.kind ConfigMap, [.reflector (Resource.kind ConfigMap)])] ∧
      ∀ kind more,
        ((w.act (.inquire kind)).actAll more).opened = [(0, Resource.kind ConfigMap)] := by
  intro w
  obtain ⟨-, -, -, -, -, -, hlate⟩ := one_entry_per_kind {} {} race
  have hstopped : w.cache.stopped = true := rfl
  have hopened : w.opened = [(0, Resource.kind ConfigMap)] := rfl
  exact ⟨rfl, rfl, fun kind more ↦ (hlate hstopped kind more).1.trans hopened⟩

end Traffic

end Informer
