import GatewayCache.Bus

/-! # What one receiver finds on the bus

Of the events that were emitted, the bus keeps the newest ones. Its receiver finds one
after the other, unless it is further behind than what is kept.
-/

namespace GatewayCache.Bus

variable {bus after : Bus} {events : List Event} {event : Event} {seen : Nat} {found : Received}

/-- Events were emitted to the one receiver of a bus, which has seen so many of them. -/
structure Carries (bus : Bus) (events : List Event) (seen : Nat) : Prop where
  receivers : bus.receivers = [some seen]
  sent : bus.sent = events.length
  kept : bus.kept = events.drop (events.length - bus.capacity)
  seen : seen ≤ events.length
  capacity : 0 < bus.capacity

theorem carries_subscribe (least : Nat) : ((ofCapacity least).subscribe).2.Carries [] 0 where
  receivers := rfl
  sent := rfl
  kept := (List.drop_nil ..).symm
  seen := Nat.le_refl 0
  capacity := Nat.pos_of_isPowerOfTwo (Nat.isPowerOfTwo_nextPowerOfTwo _)

namespace Carries

theorem emit (carries : bus.Carries events seen) (event : Event) :
    (bus.emit event).Carries (events ++ [event]) seen := by
  obtain ⟨receivers, sent, kept, behind, capacity⟩ := carries
  have one : bus.receiverCount = 1 := by simp [receiverCount, receivers]
  have emitted : bus.emit event =
      { bus with
        sent := bus.sent + 1
        kept := (bus.kept.concat event).drop ((bus.kept.concat event).length - bus.capacity) } := by
    simp [Bus.emit, one]
  rw [emitted]
  refine ⟨receivers, ?_, ?_, ?_, capacity⟩
  · simp [sent]
  -- The kept events are those after the oldest ones, which grow by one once the bus is full.
  · have within : events.length - bus.capacity ≤ events.length := Nat.sub_le ..
    simp only [kept, List.concat_eq_append, List.length_append, List.length_drop,
      List.length_singleton]
    rw [← List.drop_append_of_le_length within, List.drop_drop]
    congr 1
    omega
  · simp
    omega

theorem unseen (carries : bus.Carries events seen) :
    bus.unseen seen =
      if seen < events.length - bus.capacity then
        .lagged (events.length - bus.capacity - seen) :: bus.kept.map .event
      else (events.drop seen).map .event := by
  have oldest : bus.sent - bus.kept.length = events.length - bus.capacity := by
    rw [carries.sent, carries.kept, List.length_drop]
    omega
  simp only [Bus.unseen, oldest]
  split
  · rfl
  · rw [carries.kept, List.drop_drop]
    congr 2
    omega

theorem head?_unseen (carries : bus.Carries events seen) :
    (bus.unseen seen).head? =
      if seen < events.length - bus.capacity then
        some (.lagged (events.length - bus.capacity - seen))
      else events[seen]?.map .event := by
  rw [carries.unseen]
  split
  · rfl
  · rw [List.head?_map, List.head?_drop]

theorem receive_eq_none (carries : bus.Carries events seen) :
    (bus.receive 0).1 = none ↔ seen = events.length := by
  have behind := carries.seen
  have some_room := carries.capacity
  simp only [Bus.receive, carries.receivers, List.getElem?_cons_zero, carries.head?_unseen]
  by_cases lags : seen < events.length - bus.capacity
  · simp only [if_pos lags, reduceCtorEq, false_iff]
    omega
  · rw [if_neg lags]
    cases next : events[seen]? with
    | none =>
      have reached := List.getElem?_eq_none_iff.mp next
      simp only [Option.map_none, true_iff]
      omega
    | some event =>
      obtain ⟨more, -⟩ := List.getElem?_eq_some_iff.mp next
      simp only [Option.map_some, reduceCtorEq, false_iff]
      omega

/-- What a receiver finds is the first event that it has not seen; only if more events than are kept
were still to come does it find that some are lost. -/
theorem receive (carries : bus.Carries events seen) (next : bus.receive 0 = (some found, after)) :
    after.Carries events (seen + found.count) ∧
      match found with
      | .lagged missed => 0 < missed ∧ seen + missed + bus.capacity = events.length
      | .event event => events[seen]? = some event := by
  simp only [Bus.receive, carries.receivers, List.getElem?_cons_zero, carries.head?_unseen] at next
  by_cases lags : seen < events.length - bus.capacity
  · simp only [if_pos lags, Prod.mk.injEq, Option.some.injEq] at next
    obtain ⟨rfl, rfl⟩ := next
    refine ⟨⟨rfl, carries.sent, carries.kept, ?_, carries.capacity⟩, ?_⟩
    · simp only [Received.count]
      omega
    · simp only
      omega
  · rw [if_neg lags] at next
    cases here : events[seen]? with
    | none => simp [here] at next
    | some event =>
      simp only [here, Option.map_some, Prod.mk.injEq, Option.some.injEq] at next
      obtain ⟨rfl, rfl⟩ := next
      obtain ⟨more, -⟩ := List.getElem?_eq_some_iff.mp here
      exact ⟨⟨rfl, carries.sent, carries.kept, more, carries.capacity⟩, rfl⟩

end Carries

end GatewayCache.Bus
