import Deathmatch.Player

/-!
# Achievements

Which achievements a kill earns, and what it does to the killer's counters. A suicide costs a
point and earns one achievement of its own.
-/

namespace Deathmatch

inductive Achievement where
  | firstConnection
  | firstKill
  | fiveVictims
  | knifeKill
  | firstDeath
  | suicide
  | streak5
  | streak10
  | streak20
  deriving DecidableEq

/-- The number under which the account service knows it. -/
def Achievement.id : Achievement → UInt32
  | firstConnection => 1
  | firstKill => 2
  | fiveVictims => 3
  | knifeKill => 5
  | firstDeath => 6
  | suicide => 8
  | streak5 => 9
  | streak10 => 10
  | streak20 => 11

/-- A request to unlock an achievement for an account. -/
structure Unlock where
  account : String
  id : UInt32
  deriving DecidableEq

namespace Player

/-- The weapon of the knife. -/
def knife : UInt8 := 0

def unlock (p : Player) (achievement : Achievement) : Unlock :=
  ⟨p.account, achievement.id⟩

/-- The player's counters after a kill. -/
def scoreKill (p : Player) : Player :=
  { p with
    victims := p.victims + 1
    score := saturatingSucc p.score
    streak := saturatingSucc p.streak }

/-- The achievement of a streak of exactly this length. -/
def streakAchievement? (streak : UInt8) : Option Achievement :=
  if streak = 5 then some .streak5
  else if streak = 10 then some .streak10
  else if streak = 20 then some .streak20
  else none

/-- What a player whose counters include the kill has earned by it. -/
def killAchievements (p : Player) : List Achievement :=
  [.firstKill]
    ++ (if p.victims = 5 then [.fiveVictims] else [])
    ++ (if p.weapon = knife then [.knifeKill] else [])
    ++ (streakAchievement? p.streak).toList

/-- A kill of `victim` by another player: the killer afterwards, and what both have earned. -/
def killed (killer victim : Player) : Player × List Unlock :=
  let scored := killer.scoreKill
  (scored, victim.unlock .firstDeath :: scored.killAchievements.map scored.unlock)

/-- A player who killed themselves loses a point. -/
def suicide (p : Player) : Player × List Unlock :=
  ({ p with score := saturatingSub p.score 1 }, [p.unlock .suicide])

end Player

end Deathmatch
