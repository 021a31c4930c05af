import Deathmatch.Proofs.WorldRun
import Deathmatch.Server.Login
import Mathlib.Logic.Function.Basic

/-!
# Rosters

A roster says for every slot who plays there and where the slot's snapshots go. The world has one
(`World.roster`), and so has the table of sessions (`SessionTable.roster`): those who are logged in.
A command reseats one slot at most, whatever the world is like otherwise (`World.roster_apply`), and
a tick none.

`Roster.Admits r commands` says that each command fits when its turn comes: who joins finds the slot
vacant and the account free, and who leaves was there. Then accounts stay distinct all along
(`Roster.Distinct.after`), and in every slot joining and leaving alternate
(`Roster.Admits.alternate`).
-/

namespace Deathmatch

/-- Who plays in a slot, by account and name, and where the slot's snapshots go. -/
structure Seat where
  who : Option (String × String)
  udp : Option Endpoint

def Seat.vacant : Seat := ⟨none, none⟩

abbrev Roster := UInt8 → Seat

/-- The roster after a command. -/
def Command.reseat (r : Roster) : Command → Roster
  | .join slot account name udp =>
    Function.update r slot ⟨some (account, Player.clampName name), udp⟩
  | .leave slot => Function.update r slot .vacant
  | .move .. | .infoChange .. | .damage .. | .acknowledge .. => r

/-- Coming into a slot, or going from it. -/
inductive Turn where
  | enter
  | exit
  deriving DecidableEq

def Turn.other : Turn → Turn
  | enter => exit
  | exit => enter

/-- What a command does to the slot. -/
def Command.turn? (slot : UInt8) : Command → Option Turn
  | .join k .. => if k = slot then some .enter else none
  | .leave k => if k = slot then some .exit else none
  | .move .. | .infoChange .. | .damage .. | .acknowledge .. => none

/-- Whether turns alternate, beginning with `t`. -/
def Alternate : Turn → List Turn → Prop
  | _, [] => True
  | t, u :: rest => u = t ∧ Alternate t.other rest

namespace Roster

/-- Nobody plays. -/
def empty : Roster := fun _ => .vacant

/-- The roster after the commands, first to last. -/
def after (r : Roster) (commands : List Command) : Roster :=
  commands.foldl Command.reseat r

/-- Whether a command fits: who joins finds the slot vacant and the account free, who leaves was
there. -/
def Fits (r : Roster) : Command → Prop
  | .join slot account _ _ =>
    (r slot).who = none ∧ ∀ k who, (r k).who = some who → who.1 ≠ account
  | .leave slot => (r slot).who ≠ none
  | .move .. | .infoChange .. | .damage .. | .acknowledge .. => True

/-- Whether each of the commands fits when its turn comes. -/
def Admits (r : Roster) : List Command → Prop
  | [] => True
  | command :: rest => r.Fits command ∧ Admits (command.reseat r) rest

/-- Whether no account plays in two slots. -/
def Distinct (r : Roster) : Prop :=
  ∀ j k a b, (r j).who = some a → (r k).who = some b → a.1 = b.1 → j = k

/-- The accounts that play, in slot order. -/
def accounts (r : Roster) : List String :=
  ByteMap.allKeys.filterMap fun k => (r k).who.map (·.1)

/-- The turn that fits a slot. -/
def next (r : Roster) (slot : UInt8) : Turn :=
  if (r slot).who = none then .enter else .exit

variable {r : Roster} {command : Command} {commands : List Command} {slot : UInt8}

theorem after_append (r : Roster) (xs ys : List Command) :
    r.after (xs ++ ys) = (r.after xs).after ys :=
  List.foldl_append

theorem admits_append {xs ys : List Command} :
    r.Admits (xs ++ ys) ↔ r.Admits xs ∧ (r.after xs).Admits ys := by
  induction xs generalizing r with
  | nil => exact (true_and (Admits r ys)).symm.to_iff
  | cons command rest ih =>
    show r.Fits command ∧ Admits (command.reseat r) (rest ++ ys) ↔ _
    rw [ih]
    exact and_assoc.symm

/-! ## Distinct accounts -/

theorem distinct_empty : empty.Distinct := by
  intro j k a b here
  cases here

/-- One slot is vacated, or taken by someone whose account nobody plays with. -/
theorem Distinct.update (distinct : r.Distinct) {seat : Seat}
    (free : ∀ new, seat.who = some new → ∀ k who, (r k).who = some who → who.1 ≠ new.1) :
    Distinct (Function.update r slot seat) := by
  intro j k a b atJ atK same
  simp only [Function.update_apply] at atJ atK
  -- The account of the seat is nobody else's, so one of two equal accounts is not enough.
  split at atJ <;> split at atK
  · next hereJ hereK => rw [hereJ, hereK]
  · exact absurd same.symm (free a atJ k b atK)
  · exact absurd same (free b atK j a atJ)
  · exact distinct j k a b atJ atK same

theorem Distinct.reseat (distinct : r.Distinct) (fits : r.Fits command) :
    (command.reseat r).Distinct := by
  cases command with
  | join slot account name udp =>
    rcases fits with ⟨-, free⟩
    refine distinct.update fun new taken => ?_
    cases taken
    exact free
  | leave slot => exact distinct.update fun new taken => nomatch taken
  | move | infoChange | damage | acknowledge => exact distinct

theorem Distinct.nodup_accounts (distinct : r.Distinct) : r.accounts.Nodup := by
  refine ByteMap.nodup_allKeys.filterMap fun j k account here there => ?_
  rcases Option.map_eq_some_iff.mp here with ⟨a, atJ, rfl⟩
  rcases Option.map_eq_some_iff.mp there with ⟨b, atK, same⟩
  exact distinct j k a b atJ atK same.symm

theorem Distinct.after (distinct : r.Distinct) (admits : r.Admits commands) :
    (r.after commands).Distinct := by
  induction commands generalizing r with
  | nil => exact distinct
  | cons command rest ih => exact ih (distinct.reseat admits.1) admits.2

/-! ## Turns in a slot -/

/-- A command that is no turn of a slot leaves it alone. -/
theorem reseat_of_turn?_eq_none (other : command.turn? slot = none) :
    command.reseat r slot = r slot := by
  cases command with
  | join k | leave k =>
    simp only [Command.turn?] at other
    split at other
    · cases other
    · next away => exact Function.update_of_ne (Ne.symm away) _ _
  | move | infoChange | damage | acknowledge => rfl

/-- A command that fits and is a turn of a slot is the one to come next, and the other comes after
it. -/
theorem next_of_turn?_eq_some {t : Turn} (fits : r.Fits command)
    (turn : command.turn? slot = some t) :
    t = r.next slot ∧ (Command.reseat r command).next slot = t.other := by
  cases command with
  | join k =>
    simp only [Command.turn?] at turn
    split at turn
    · next here =>
      cases turn
      subst here
      refine ⟨(if_pos fits.1).symm, if_neg ?_⟩
      rw [Command.reseat, Function.update_self]
      exact Option.some_ne_none _
    · cases turn
  | leave k =>
    simp only [Command.turn?] at turn
    split at turn
    · next here =>
      cases turn
      subst here
      refine ⟨(if_neg fits).symm, if_pos ?_⟩
      rw [Command.reseat, Function.update_self]
      rfl
    · cases turn
  | move | infoChange | damage | acknowledge => cases turn

/-- Joining and leaving alternate in every slot. -/
theorem Admits.alternate (admits : r.Admits commands) (slot : UInt8) :
    Alternate (r.next slot) (commands.filterMap (Command.turn? slot)) := by
  induction commands generalizing r with
  | nil => trivial
  | cons command rest ih =>
    rcases admits with ⟨fits, later⟩
    have alternate := ih later
    cases turn : command.turn? slot with
    | none =>
      rw [List.filterMap_cons_none turn]
      rwa [next, reseat_of_turn?_eq_none turn] at alternate
    | some t =>
      rcases next_of_turn?_eq_some fits turn with ⟨now, then_⟩
      rw [List.filterMap_cons_some turn]
      rw [then_, now] at alternate
      exact ⟨now, alternate⟩

end Roster

/-! ## The roster of the world -/

/-- A text that is short enough is not cut. -/
theorem Text.clamp_of_le {limit : Nat} {s : String} (short : s.utf8ByteSize ≤ limit) :
    Text.clamp limit s = s := by
  have whole (cs : List Char) (limit : Nat) (short : Text.charsSize cs ≤ limit) :
      Text.clampChars limit cs = cs := by
    induction cs generalizing limit with
    | nil => rfl
    | cons c cs ih =>
      have size : c.utf8Size + Text.charsSize cs ≤ limit := short
      rw [Text.clampChars, if_pos (by omega), ih _ (by omega)]
  rw [Text.clamp, whole s.toList limit (by rwa [Text.charsSize_eq, String.ofList_toList]),
    String.ofList_toList]

/-- A name that has been cut is not cut again. -/
theorem Player.clampName_clampName (name : String) :
    Player.clampName (Player.clampName name) = Player.clampName name :=
  Text.clamp_of_le (Player.size_clampName name)

namespace World

variable {w : World}

/-- Who plays in the world, and where the snapshots go. -/
def roster (w : World) : Roster :=
  fun slot => ⟨w.cast slot, w.endpoints.get? slot⟩

theorem roster_empty (interval : Span) (points : List Vec3) (rolls : Nat → Nat) :
    (World.empty interval points rolls).roster = Roster.empty := by
  funext slot
  simp [roster, cast, empty, Roster.empty, Seat.vacant]

/-- A step by which nobody enters or leaves keeps the roster. -/
theorem roster_after (step : Step) (settled : step.seats = false) :
    (w.after step).roster = w.roster := by
  funext slot
  rw [roster, roster, cast_after settled, endpoints_after settled]

theorem roster_apply (command : Command) (now : Time) :
    (w.apply command now).1.roster = command.reseat w.roster := by
  cases command with
  | join slot account name udp =>
    funext k
    by_cases here : k = slot
    · simp [roster, cast, apply, join, Command.reseat, ByteMap.get?_insert, here, Player.join]
    · simp [roster, cast, apply, join, Command.reseat, ByteMap.get?_insert, ByteMap.get?_put,
        Function.update_of_ne here, Ne.symm here]
  | leave slot =>
    funext k
    by_cases here : k = slot
    · simp [roster, cast, apply, leave, Command.reseat, ByteMap.get?_erase, here, Seat.vacant]
    · simp [roster, cast, apply, leave, Command.reseat, ByteMap.get?_erase,
        Function.update_of_ne here, Ne.symm here]
  | move slot motion receivedAt =>
    exact roster_after (.command (.move slot motion receivedAt) now) rfl
  | infoChange slot weapon model =>
    exact roster_after (.command (.infoChange slot weapon model) now) rfl
  | damage attacker victim amount =>
    exact roster_after (.command (.damage attacker victim amount) now) rfl
  | acknowledge slot id => exact roster_after (.command (.acknowledge slot id) now) rfl

theorem roster_applyAll (now : Time) (commands : List Command) :
    (w.applyAll now commands).1.roster = w.roster.after commands := by
  induction commands generalizing w with
  | nil => rfl
  | cons command rest ih =>
    show ((w.apply command now).1.applyAll now rest).1.roster = _
    rw [ih, roster_apply]
    rfl

theorem roster_tick (now : Time) : (w.tick now).1.roster = w.roster :=
  roster_after (.tick now) rfl

theorem map_account_players (w : World) :
    w.players.values.map (·.account) = w.roster.accounts := by
  rw [ByteMap.values, ByteMap.toList, List.map_map, List.map_filterMap, Roster.accounts]
  refine List.filterMap_congr fun k _ => ?_
  rw [roster, cast]
  cases w.players.get? k <;> rfl

/-- No account plays twice in a world with a distinct roster. -/
theorem nodup_accounts (distinct : w.roster.Distinct) :
    (w.players.values.map (·.account)).Nodup := by
  rw [map_account_players]
  exact distinct.nodup_accounts

end World

/-! ## The roster of the table of sessions -/

/-- A session once it has logged in. -/
def Session.loggedIn (x : Session) (account name : String) : Session :=
  { x with account, name, initialized := true }

/-- The seat of a session: vacant until login. -/
def Session.seat (x : Session) : Seat :=
  if x.initialized then ⟨some (x.account, x.name), x.address.udp⟩ else .vacant

namespace SessionTable

variable {t t' : SessionTable} {slot : UInt8} {x : Session}

/-- Who is logged in, and the endpoints that they announced. -/
def roster (t : SessionTable) : Roster :=
  fun slot => (t.get? slot).elim .vacant Session.seat

/-- The session of a slot, if it is logged in. -/
def player? (t : SessionTable) (slot : UInt8) : Option Session :=
  (t.get? slot).filter (·.initialized)

/-- Every session is kept under its own slot. -/
def Indexed (t : SessionTable) : Prop :=
  ∀ slot x, t.get? slot = some x → x.slot = slot

theorem roster_of_get? (found : t.get? slot = some x) : t.roster slot = x.seat := by
  rw [roster, found]
  rfl

theorem player?_of_get? (found : t.get? slot = some x) :
    t.player? slot = if x.initialized then some x else none := by
  rw [player?, found, Option.filter_some]

/-- The seats of those who are logged in. -/
theorem roster_eq (t : SessionTable) (slot : UInt8) :
    t.roster slot = ⟨(t.player? slot).map fun x => (x.account, x.name),
      (t.player? slot).bind (·.address.udp)⟩ := by
  rw [roster, player?]
  cases t.get? slot with
  | none => rfl
  | some x => cases login : x.initialized <;> simp [Option.filter_some, Session.seat, login,
      Seat.vacant]

/-- Where the same sessions are logged in, the roster is the same. -/
theorem roster_congr (same : t'.player? = t.player?) : t'.roster = t.roster := by
  funext k
  rw [roster_eq, roster_eq, same]

/-- Where one slot changes, so does the roster. -/
theorem roster_update {player : Option Session}
    (changed : t'.player? = Function.update t.player? slot player) :
    t'.roster = Function.update t.roster slot
      ⟨player.map fun x => (x.account, x.name), player.bind (·.address.udp)⟩ := by
  funext k
  rw [roster_eq, changed, Function.update_apply, Function.update_apply]
  split
  · rfl
  · exact (roster_eq t k).symm

/-- Those who play are those who are logged in. -/
theorem who_roster {who : String × String} :
    (t.roster slot).who = some who ↔
      ∃ x, t.get? slot = some x ∧ x.initialized = true ∧ (x.account, x.name) = who := by
  rw [roster_eq, player?]
  simp [Option.filter_eq_some_iff, and_assoc]

theorem get?_empty (capacity : Nat) : (SessionTable.empty capacity).get? slot = none :=
  ByteMap.get?_empty slot

theorem roster_empty (capacity : Nat) : (SessionTable.empty capacity).roster = Roster.empty := by
  funext slot
  rw [roster, get?_empty]
  rfl

theorem indexed_empty (capacity : Nat) : (SessionTable.empty capacity).Indexed := by
  intro slot x found
  rw [get?_empty] at found
  cases found

/-! ### A new session -/

/-- A new session comes into a free slot, and leaves the others alone. -/
theorem allocate_cases {address : Address} {connection : Nat}
    (allocated : t.allocate address connection = some (slot, t')) :
    t.get? slot = none ∧ ∀ k, t'.get? k =
      if slot = k then some (.stub slot address connection) else t.get? k := by
  rcases Option.map_eq_some_iff.mp allocated with ⟨free, found, same⟩
  cases same
  refine ⟨?_, fun k => ByteMap.get?_insert t.sessions slot k _⟩
  have vacant := List.find?_some found
  simpa [ByteMap.contains, SessionTable.get?] using vacant

theorem player?_allocate {address : Address} {connection : Nat}
    (allocated : t.allocate address connection = some (slot, t')) : t'.player? = t.player? := by
  rcases allocate_cases allocated with ⟨free, entries⟩
  funext k
  rw [player?, entries, player?]
  split
  · next here =>
    subst here
    rw [free]
    rfl
  · rfl

theorem roster_allocate {address : Address} {connection : Nat}
    (allocated : t.allocate address connection = some (slot, t')) : t'.roster = t.roster :=
  roster_congr (player?_allocate allocated)

theorem Indexed.allocate {address : Address} {connection : Nat} (indexed : t.Indexed)
    (allocated : t.allocate address connection = some (slot, t')) : t'.Indexed := by
  rcases allocate_cases allocated with ⟨-, entries⟩
  intro k x found
  rw [entries] at found
  split at found
  · next here =>
    cases found
    exact here
  · exact indexed k x found

/-! ### The end of a session -/

theorem get?_remove (t : SessionTable) (slot k : UInt8) :
    (t.remove slot).get? k = if slot = k then none else t.get? k :=
  ByteMap.get?_erase t.sessions slot k

theorem player?_remove (t : SessionTable) (slot : UInt8) :
    (t.remove slot).player? = Function.update t.player? slot none := by
  funext k
  rw [player?, get?_remove, Function.update_apply]
  split
  · next here => rw [if_pos here.symm, Option.filter_none]
  · next away => rw [if_neg (Ne.symm away), player?]

theorem roster_remove (t : SessionTable) (slot : UInt8) :
    (t.remove slot).roster = Function.update t.roster slot .vacant :=
  roster_update (player?_remove t slot)

theorem Indexed.remove (indexed : t.Indexed) (slot : UInt8) : (t.remove slot).Indexed := by
  intro k x found
  rw [get?_remove] at found
  split at found
  · cases found
  · exact indexed k x found

/-- Taking out a session that is logged in vacates its seat; taking out another changes no seat. -/
theorem roster_owned {tcp : Option Endpoint} (owned : t.owned? slot tcp = some x) :
    (t.remove slot).roster =
      if x.initialized then (Command.leave slot).reseat t.roster else t.roster := by
  have found : t.get? slot = some x := (Option.filter_eq_some_iff.mp owned).1
  rw [roster_remove]
  split
  · rfl
  · next stub =>
    refine Function.update_eq_self_iff.mpr ?_
    rw [roster_of_get? found, Session.seat, if_neg stub]

/-! ### Login -/

theorem get?_authenticate (t : SessionTable) (slot k : UInt8) (account name : String) :
    (t.authenticate slot account name).get? k =
      if slot = k then (t.get? slot).map (·.loggedIn account name) else t.get? k :=
  ByteMap.get?_modify t.sessions slot k _

/-- An account that is not found is nobody's. -/
theorem free_of_findByAccount? {account : String} (nobody : t.findByAccount? account = none)
    {k : UInt8} (found : t.get? k = some x) (initialized : x.initialized = true) :
    x.account ≠ account := by
  intro same
  have playing := List.find?_eq_none.mp nobody x (ByteMap.mem_values.mpr ⟨k, found⟩)
  rw [initialized, same] at playing
  exact playing (by simp)

/-- A login finds a session in the slot and the account free, and changes that session only. -/
theorem seat_cases {account name : String} {udp : Option Endpoint}
    (seated : t.seat slot account name = .seated udp t') :
    ∃ x, t.get? slot = some x ∧ udp = x.address.udp ∧
      (∀ k y, t.get? k = some y → y.initialized = true → y.account ≠ account) ∧
      ∀ k, t'.get? k = if slot = k then some (x.loggedIn account name) else t.get? k := by
  unfold seat at seated
  split at seated
  · cases seated
  · next free =>
    have nobody := Option.not_isSome_iff_eq_none.mp free
    split at seated
    · cases seated
    · next x found =>
      cases seated
      refine ⟨x, found, rfl, fun k y => free_of_findByAccount? nobody, fun k => ?_⟩
      rw [get?_authenticate, found]
      rfl

theorem player?_seat {account name : String}
    (entries : ∀ k, t'.get? k = if slot = k then some (x.loggedIn account name) else t.get? k) :
    t'.player? = Function.update t.player? slot (some (x.loggedIn account name)) := by
  funext k
  rw [player?, entries, Function.update_apply]
  split
  · next here =>
    rw [if_pos here.symm]
    rfl
  · next away => rw [if_neg (Ne.symm away), player?]

/-- A login seats the session as a join of the player does. -/
theorem roster_seat {account name : String} {udp : Option Endpoint}
    (seated : t.seat slot account name = .seated udp t')
    (short : Player.clampName name = name) :
    t'.roster = (Command.join slot account name udp).reseat t.roster := by
  rcases seat_cases seated with ⟨x, -, rfl, -, entries⟩
  rw [roster_update (player?_seat entries), Command.reseat, short]
  rfl

/-- Nobody has played with the account so far. -/
theorem roster_free {account name : String} {udp : Option Endpoint}
    (seated : t.seat slot account name = .seated udp t') (k : UInt8) (who : String × String)
    (seat : (t.roster k).who = some who) : who.1 ≠ account := by
  rcases seat_cases seated with ⟨-, -, -, free, -⟩
  rcases who_roster.mp seat with ⟨y, found, initialized, rfl⟩
  exact free k y found initialized

/-- The join of the player fits if the session was not logged in. -/
theorem fits_seat {account name : String} {udp : Option Endpoint}
    (seated : t.seat slot account name = .seated udp t') (found : t.get? slot = some x)
    (stub : x.initialized = false) : t.roster.Fits (.join slot account name udp) := by
  refine ⟨?_, roster_free seated⟩
  rw [roster_of_get? found, Session.seat, stub]
  rfl

theorem Indexed.seat (indexed : t.Indexed) {account name : String} {udp : Option Endpoint}
    (seated : t.seat slot account name = .seated udp t') : t'.Indexed := by
  rcases seat_cases seated with ⟨x, found, -, -, entries⟩
  intro k y foundThere
  rw [entries] at foundThere
  split at foundThere
  · next here =>
    cases foundThere
    exact (indexed slot x found).trans here
  · exact indexed k y foundThere

end SessionTable

end Deathmatch
