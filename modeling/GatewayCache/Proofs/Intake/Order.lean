import Mathlib.Data.List.Basic
import GatewayCache.Intake.Parcel
import GatewayCache.Proofs.Cache.Replacement
import GatewayCache.Proofs.Intake
import GatewayCache.Proofs.Store.Flat

/-! # Parcels that share no place

A parcel reads nothing of the store but the place of its own record, and writes to its
places only. So parcels that share no place can be taken in in either order: the store
is the same in the end, and neither tells from its change which of them came first.
-/

namespace GatewayCache

theorem Record.place_eq_iff {first second : Record} :
    first.place = second.place ↔ (first.kind, first.key) = (second.kind, second.key) :=
  Place.ofAddress_injective

namespace Config

variable {config : Config} {records first second : List Record} {record other : Record}

theorem mem_placesOf (here : record ∈ records) (stored : config.stores record.kind) :
    record.place ∈ config.placesOf records :=
  List.mem_map_of_mem (List.mem_filter.mpr ⟨here, stored⟩)

theorem place_ne (apart : (config.placesOf first).Disjoint (config.placesOf second))
    (here : record ∈ first) (stored : config.stores record.kind) (there : other ∈ second)
    (storedToo : config.stores other.kind) : record.place ≠ other.place := by
  intro same
  exact apart (mem_placesOf here stored) (same ▸ mem_placesOf there storedToo)

end Config

namespace Store

variable {config : Config} {first second : List Record} {store other : Store} {kind : Kind}
  {place : Key} {split : Split}

theorem writeAll_comm (apart : (config.placesOf first).Disjoint (config.placesOf second))
    (store : Store) :
    writeAll config (writeAll config store first) second =
      writeAll config (writeAll config store second) first := by
  simp only [writeAll_eq_layAll]
  apply cells.layAll_comm onto
  intro entry inFirst next inSecond same
  obtain ⟨record, here, stored, rfl⟩ := mem_entriesOf inFirst
  obtain ⟨other, there, storedToo, rfl⟩ := mem_entriesOf inSecond
  exact Config.place_ne apart here stored there storedToo (Record.place_eq_iff.mpr same.symm)

theorem isSome_fieldsAt_writeAll (records : List Record) (store : Store) (place : Place) :
    ((writeAll config store records).fieldsAt place.kind place.key).isSome ↔
      (store.fieldsAt place.kind place.key).isSome ∨ place ∈ config.placesOf records := by
  induction records generalizing store with
  | nil => simp [writeAll, Config.placesOf]
  | cons record rest ih =>
    by_cases stored : config.stores record.kind
    · have first : writeAll config store (record :: rest) =
          writeAll config (store.write record.kind record.key record.fields) rest := by
        simp [writeAll, stored, writeRecord]
      have own : place = record.place ↔ (record.kind, record.key) = (place.kind, place.key) := by
        rw [← Place.ofAddress_injective, Place.ofAddress_key, eq_comm]
        rfl
      rw [first, ih, fieldsAt_write]
      by_cases here : (record.kind, record.key) = (place.kind, place.key) <;>
        simp [here, own, Config.placesOf, stored]
    · have first : writeAll config store (record :: rest) = writeAll config store rest := by
        simp [writeAll, stored]
      rw [first, ih]
      simp [Config.placesOf, stored]

theorem isSome_recordAt_writeAll {record : Record} {records : List Record} (here : record ∈ records)
    (stored : config.stores record.kind) (store : Store) :
    ((writeAll config store records).recordAt record.kind record.key).isSome := by
  have filled := (isSome_fieldsAt_writeAll records store record.place).mpr
    (.inr (Config.mem_placesOf here stored))
  have key : record.place.key = record.key := Place.key_ofAddress record.kind record.key
  rw [key] at filled
  rw [recordAt, Option.isSome_map]
  exact filled

theorem place_fst_congr
    (same : config.stores split.root.kind → other.fieldsAt split.root.kind split.root.key =
      store.fieldsAt split.root.kind split.root.key) :
    (other.place config split).1 = (store.place config split).1 := by
  unfold place placeRoot
  split
  · next stored =>
    have root : (other.placeEmbedded config split).recordAt split.root.kind split.root.key =
        (store.placeEmbedded config split).recordAt split.root.kind split.root.key := by
      simp only [recordAt, placeEmbedded, fieldsAt_writeAll, same stored]
    simp only [changeBy, root]
  · rfl

end Store

namespace Parcel

variable {config : Config} {parcel first second : Parcel} {store : Store} {change other : Change}

/-- A parcel that one store takes in is taken in by all stores. -/
theorem takeIn_ok (taken : ((parcel.takeIn config).on store).1 = .ok change) :
    ∃ split, parcel.records = split.records ∧ (store.place config split).1 = change ∧
      ∀ store, (parcel.takeIn config).on store =
        (.ok (store.place config split).1, store.writeAll config parcel.records) := by
  have placed := Intake.place_on config parcel.kind parcel.guild parcel.payload
  cases apart : Split.ofJson parcel.kind parcel.guild parcel.payload with
  | error error =>
    simp only [apart] at placed
    rw [takeIn, placed] at taken
    cases taken
  | ok split =>
    simp only [apart] at placed
    have records : parcel.records = split.records := by simp [Parcel.records, apart, Except.toOption]
    rw [takeIn, placed] at taken
    refine ⟨split, records, Except.ok.inj taken, fun store => ?_⟩
    rw [takeIn, placed, records, Store.place_snd]

/-- A parcel that comes after one without a place in common tells the same change. -/
theorem takeIn_after (taken : ((second.takeIn config).on store).1 = .ok change)
    (apart : (first.places config).Disjoint (second.places config)) :
    (second.takeIn config).on (store.writeAll config first.records) =
      (.ok change, (store.writeAll config first.records).writeAll config second.records) := by
  obtain ⟨split, records, rfl, takes⟩ := takeIn_ok taken
  have spared : config.stores split.root.kind →
      (store.writeAll config first.records).fieldsAt split.root.kind split.root.key =
        store.fieldsAt split.root.kind split.root.key := by
    intro stored
    have root : split.root ∈ second.records := by simp [records, Split.records]
    apply Store.fieldsAt_writeAll_of_untouched
    intro record here storedToo same
    exact Config.place_ne apart here storedToo root stored (Record.place_eq_iff.mpr same)
  rw [takes, Store.place_fst_congr spared]

end Parcel

end GatewayCache
