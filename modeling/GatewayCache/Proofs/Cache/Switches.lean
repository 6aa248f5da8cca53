import GatewayCache.Proofs.Cache.Readiness
import GatewayCache.Proofs.Cache.Leaving
import GatewayCache.Proofs.Store.Hiding

/-! # Switches only hide

Under any configuration a run keeps the records that it would keep if every kind was
stored, less those of the kinds that are not. Whether updates are given out as they
came makes no difference to anything but that.
-/

namespace GatewayCache

/-- A kind that a configuration leaves out by its own switch. -/
def Config.Hides (config : Config) (kind : Kind) : Prop :=
  kind = .message ∧ config.cacheMessages = false ∨ kind = .emoji ∧ config.cacheEmoji = false

theorem Config.stores_eq_false_iff (config : Config) (kind : Kind) :
    config.stores kind = false ↔ config.Hides kind := by
  cases kind <;> simp [stores, Hides]

/-- An event that only gives an update out as it came. -/
def Event.isRaw : Event → Bool
  | .raw .. => true
  | _ => false

/-- An outcome without the events that give updates out as they came. -/
def Outcome.withoutRaw (outcome : Outcome) : Outcome :=
  { outcome with events := outcome.events.filter (!·.isRaw) }

namespace Cache

open Store Update

variable {full shown : Cache}

theorem linked_shows {config : Config} (shows : Shows config full.store shown.store)
    (owner : Option Snowflake) (kind : Kind) (id : Snowflake) :
    Shows config (full.linked owner kind id).store (shown.linked owner kind id).store := by
  unfold linked
  split
  · exact shows.link _ _ id
  · exact shows

theorem unlinked_shows {config : Config} (shows : Shows config full.store shown.store)
    (owner : Option Snowflake) (kind : Kind) (id : Snowflake) :
    Shows config (full.unlinked owner kind id).store (shown.unlinked owner kind id).store := by
  unfold unlinked
  split
  · exact shows.unlink _ _ id
  · exact shows

theorem added_shows (every : full.config.Full) (shows : Shows shown.config full.store shown.store)
    {split : Split} (other : split.root.kind ≠ .emoji) :
    Shows shown.config (full.added split).1.store (shown.added split).1.store := by
  have placed := shows.place every split
  have kinds : ∀ cache : Cache, (cache.placed split).1.after.kind = split.root.kind :=
    fun cache => (place_after cache.config cache.store split).1
  cases stored : shown.config.stores split.root.kind with
  | true =>
    have after : (shown.placed split).1.after = (full.placed split).1.after :=
      shows.after every stored
    simp only [added, after]
    exact linked_shows placed _ _ _
  | false =>
    -- A message may name another guild where it is not stored, but no guild lists messages.
    have hidden := (Config.stores_eq_false_iff _ _).mp stored
    have message : split.root.kind = .message := by
      rcases hidden with ⟨same, -⟩ | ⟨same, -⟩
      · exact same
      · exact absurd same other
    have unlisted : ∀ (cache : Cache) (owner : Option Snowflake) (id : Snowflake),
        (cache.linked owner .message id).store = cache.store := by
      intro cache owner id
      cases owner <;> rfl
    simp only [added, kinds, message, unlisted]
    exact placed

theorem rolePlaced_shows (every : full.config.Full)
    (shows : Shows shown.config full.store shown.store) (created : Bool) (guild : Snowflake)
    (role : Split) :
    Shows shown.config (full.rolePlaced created guild role).1.store
      (shown.rolePlaced created guild role).1.store := by
  have ids : ∀ cache : Cache, (cache.placed role).1.after.id = role.root.id :=
    fun cache => congrArg Key.id (place_after cache.config cache.store role).2
  simp only [rolePlaced, ids]
  exact linked_shows (shows.place every role) _ _ _

theorem emojisReplaced_shows (every : full.config.Full)
    (shows : Shows shown.config full.store shown.store) (guild : Snowflake) (emojis : List Split) :
    Shows shown.config (full.emojisReplaced guild emojis).1.store
      (shown.emojisReplaced guild emojis).1.store := by
  simp only [emojisReplaced, dropStaleEmoji, placeAll_ids]
  refine Shows.setList (Shows.deletes (shows.placeAll every emojis) (fun _ => rfl) ?_) _ _ _
  intro stored id
  rw [mem_staleIds, mem_staleIds, placeAll_ids, placeAll_ids, mem_emojiOf, mem_emojiOf,
    shows.fieldsAt stored]

theorem stickersReplaced_shows (every : full.config.Full)
    (shows : Shows shown.config full.store shown.store) (guild : Snowflake)
    (stickers : List Split) :
    Shows shown.config (full.stickersReplaced guild stickers).1.store
      (shown.stickersReplaced guild stickers).1.store := by
  have before : stickersOf shown.store guild = stickersOf full.store guild := by
    have found : shown.store.get .sticker = full.store.get .sticker :=
      funext fun id => shows.recordAt rfl
    rw [stickersOf, shows.listed, found, stickersOf]
  simp only [stickersReplaced, dropStaleStickers, placeAll_ids, before]
  refine Shows.setList (Shows.deletes (shows.placeAll every stickers) (fun _ => rfl) ?_) _ _ _
  intro _ id
  rw [mem_staleIds, mem_staleIds, placeAll_ids, placeAll_ids]

/-- An update does to a store with kinds left out what it does to one with all of them. -/
theorem perform_shows (every : full.config.Full)
    (shows : Shows shown.config full.store shown.store) {kind : UpdateKind} {update : Update}
    (fits : update.Fits kind) :
    Shows shown.config (full.perform update).1.store (shown.perform update).1.store := by
  cases update with
  | guildAvailable guild =>
    simp only [perform, guildAvailable_store]
    exact shows.place every guild
  | guildPending split | guildChanged split | banAdded guild split | banLifted guild split
  | integrationAdded split | integrationChanged split | changed split | voiceChanged split =>
    exact shows.place every split
  | guildOutage guild =>
    simp only [perform, guildOutage, shows.guild?]
    split
    · exact shows.write rfl _ _
    · exact shows
  | guildLeft guild => exact shows.evict guild
  | emojisReplaced guild emojis => exact emojisReplaced_shows every shows guild emojis
  | stickersReplaced guild stickers => exact stickersReplaced_shows every shows guild stickers
  | membersListed guild members last => cases last <;> exact shows.placeAll every members
  | roleAdded guild role | roleChanged guild role => exact rolePlaced_shows every shows _ guild role
  | added split => exact added_shows every shows fits
  | removed kind key owner => exact (unlinked_shows shows owner kind key.id).delete kind key
  | integrationRemoved guild id application => exact shows.delete .integration (.global id)
  | webhooksChanged guild channel => exact shows

theorem apply_shows (every : full.config.Full)
    (shows : Shows shown.config full.store shown.store) (dispatch : Dispatch) :
    Shows shown.config (full.apply dispatch).2.store (shown.apply dispatch).2.store := by
  rw [apply_eq, apply_eq]
  split
  · exact shows
  · next kind _ =>
    cases reads : Update.read kind dispatch.data with
    | error error => exact shows
    | ok update => exact perform_shows every shows (read_fits kind _ update reads)

theorem applyAll_shows (every : full.config.Full)
    (shows : Shows shown.config full.store shown.store) (dispatches : List Dispatch) :
    Shows shown.config (full.applyAll dispatches).store (shown.applyAll dispatches).store := by
  induction dispatches generalizing full shown with
  | nil => exact shows
  | cons dispatch rest ih =>
    have next := apply_shows every shows dispatch
    rw [← apply_config shown dispatch] at next ⊢
    refine ih ?_ next
    rwa [apply_config]

/-- The cache with the switch for updates as they came set one way. -/
def withRaw (cache : Cache) (raw : Bool) : Cache :=
  { cache with config := { cache.config with dispatchRaw := raw } }

variable {cache : Cache} {raw : Bool}

theorem linked_withRaw (owner : Option Snowflake) (kind : Kind) (id : Snowflake) :
    (cache.withRaw raw).linked owner kind id = (cache.linked owner kind id).withRaw raw := by
  unfold linked
  split <;> rfl

theorem unlinked_withRaw (owner : Option Snowflake) (kind : Kind) (id : Snowflake) :
    (cache.withRaw raw).unlinked owner kind id = (cache.unlinked owner kind id).withRaw raw := by
  unfold unlinked
  split <;> rfl

theorem placed_withRaw (split : Split) :
    (cache.withRaw raw).placed split =
      ((cache.placed split).1, (cache.placed split).2.withRaw raw) := rfl

theorem placeAll_withRaw (config : Config) (store : Store) (splits : List Split) :
    store.placeAll { config with dispatchRaw := raw } splits = store.placeAll config splits := by
  induction splits generalizing store with
  | nil => rfl
  | cons split rest ih =>
    have first : store.place { config with dispatchRaw := raw } split = store.place config split := rfl
    simp only [placeAll, first, ih]

theorem guildAvailable_withRaw (split : Split) :
    (cache.withRaw raw).guildAvailable split =
      ((cache.guildAvailable split).1.withRaw raw, (cache.guildAvailable split).2) := by
  have first : cache.store.place { cache.config with dispatchRaw := raw } split =
      cache.store.place cache.config split := rfl
  simp only [guildAvailable, withRaw, first]
  split
  · rfl
  split
  · rfl
  split <;> rfl

theorem perform_withRaw (update : Update) :
    (cache.withRaw raw).perform update =
      ((cache.perform update).1.withRaw raw, (cache.perform update).2) := by
  cases update with
  | guildAvailable split => exact guildAvailable_withRaw split
  | membersListed guild members last =>
    simp only [perform, membersListed, withRaw, placeAll_withRaw]
    split <;> rfl
  | emojisReplaced guild emojis =>
    simp only [perform, emojisReplaced, withRaw, placeAll_withRaw]
  | stickersReplaced guild stickers =>
    simp only [perform, stickersReplaced, withRaw, placeAll_withRaw]
  | added split => simp only [perform, added, placed_withRaw, linked_withRaw]
  | removed kind key owner =>
    simp only [perform, removed, unlinked_withRaw]
    rfl
  | guildPending | guildChanged | guildOutage | guildLeft | banAdded | banLifted | webhooksChanged
  | integrationAdded | integrationChanged | integrationRemoved | roleAdded | roleChanged | changed
  | voiceChanged => rfl

theorem rawEvents_withoutRaw (cache : Cache) (dispatch : Dispatch) :
    (cache.rawEvents dispatch).filter (!·.isRaw) = [] := by
  unfold rawEvents
  split <;> rfl

theorem withoutRaw_of {events : List Event} (onlyRaw : events.filter (!·.isRaw) = [])
    (reaction : Reaction) :
    (Outcome.of events reaction).withoutRaw = (Outcome.of [] reaction).withoutRaw := by
  cases reaction <;> simp [Outcome.of, Outcome.withoutRaw, onlyRaw, List.filter_append]

/-- Applying an update looks at the switch only to give the update out as it came. -/
theorem apply_withRaw (dispatch : Dispatch) :
    ((cache.withRaw raw).apply dispatch).2 = (cache.apply dispatch).2.withRaw raw ∧
      ((cache.withRaw raw).apply dispatch).1.map Outcome.withoutRaw =
        (cache.apply dispatch).1.map Outcome.withoutRaw := by
  rw [apply_eq, apply_eq]
  cases UpdateKind.ofName? dispatch.name with
  | none =>
    refine ⟨rfl, ?_⟩
    simp [Except.map, Outcome.withoutRaw, rawEvents_withoutRaw]
  | some kind =>
    cases reads : Update.read kind dispatch.data with
    | error error =>
      constructor
      · simp only [reads, withRaw]
      · simp only [reads]
    | ok update =>
      simp only [reads, perform_withRaw]
      refine ⟨rfl, ?_⟩
      simp only [Except.map]
      rw [withoutRaw_of (rawEvents_withoutRaw _ dispatch),
        withoutRaw_of (rawEvents_withoutRaw _ dispatch)]

theorem applyAll_withRaw (dispatches : List Dispatch) :
    (cache.withRaw raw).applyAll dispatches = (cache.applyAll dispatches).withRaw raw := by
  induction dispatches generalizing cache with
  | nil => rfl
  | cons dispatch rest ih =>
    have next : (cache.withRaw raw).applyAll (dispatch :: rest) =
        ((cache.withRaw raw).apply dispatch).2.applyAll rest := rfl
    rw [next, (apply_withRaw dispatch).1, ih]
    rfl

theorem apply_error_iff (cache : Cache) (dispatch : Dispatch) (error : CacheError) :
    (cache.apply dispatch).1 = .error error ↔
      ∃ kind, UpdateKind.ofName? dispatch.name = some kind ∧
        Update.read kind dispatch.data = .error error := by
  rw [apply_eq]
  cases UpdateKind.ofName? dispatch.name with
  | none => simp
  | some kind =>
    cases reads : Update.read kind dispatch.data <;> simp [reads]

theorem recordAt_of_hides {config : Config} {full shown : Store} (shows : Shows config full shown)
    {kind : Kind} (hides : config.Hides kind) (place : Key) : shown.recordAt kind place = none := by
  rw [recordAt, shows, (Config.stores_eq_false_iff config kind).mpr hides]
  rfl

/-- The same updates, applied under two configurations, are refused alike and leave the same records,
except that each configuration leaves out just the messages or the emoji that it does not store. If the
configurations differ in giving updates out as they came alone, the gates and the requests are the same
too, and so is every outcome apart from that. -/
theorem switches_only_hide (first second : Config) (dispatches : List Dispatch) :
    let one := (empty first).applyAll dispatches
    let two := (empty second).applyAll dispatches
    (∀ dispatch error,
        (one.apply dispatch).1 = .error error ↔ (two.apply dispatch).1 = .error error) ∧
      (∀ kind place, ¬ first.Hides kind → ¬ second.Hides kind →
        one.store.recordAt kind place = two.store.recordAt kind place) ∧
      (∀ kind place, first.Hides kind → one.store.recordAt kind place = none) ∧
      (∀ kind place, second.Hides kind → two.store.recordAt kind place = none) ∧
      (second = { first with dispatchRaw := second.dispatchRaw } →
        two.gates = one.gates ∧ two.requests = one.requests ∧
          ∀ dispatch, (two.apply dispatch).1.map Outcome.withoutRaw =
            (one.apply dispatch).1.map Outcome.withoutRaw) := by
  intro one two
  have every : (empty {}).config.Full := fun kind => by cases kind <;> rfl
  have shows : ∀ config : Config, Shows config ((empty {}).applyAll dispatches).store
      ((empty config).applyAll dispatches).store := by
    intro config
    exact applyAll_shows every (Shows.empty config) dispatches
  have stores : ∀ (config : Config) (kind : Kind), ¬ config.Hides kind → config.stores kind = true := by
    intro config kind seen
    rw [← Config.stores_eq_false_iff, Bool.not_eq_false] at seen
    exact seen
  refine ⟨?_, ?_, ?_, ?_, ?_⟩
  · intro dispatch error
    rw [apply_error_iff, apply_error_iff]
  · intro kind place here there
    rw [(shows first).recordAt (stores first kind here),
      (shows second).recordAt (stores second kind there)]
  · exact fun kind place hides => recordAt_of_hides (shows first) hides place
  · exact fun kind place hides => recordAt_of_hides (shows second) hides place
  · intro same
    have two_eq : two = one.withRaw second.dispatchRaw := by
      have start : empty second = (empty first).withRaw second.dispatchRaw := by
        rw [same]
        rfl
      simp only [two, one, start, applyAll_withRaw]
    rw [two_eq]
    exact ⟨rfl, rfl, fun dispatch => (apply_withRaw dispatch).2⟩

end Cache

end GatewayCache
