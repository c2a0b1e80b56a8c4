import Mathlib.Algebra.GroupWithZero.Nat
import Mathlib.Data.Fin.VecNotation

/-!
# The constants of Monolith
-/

namespace Circom

def spongeRate : Nat := 8

def spongeCapacity : Nat := 4

abbrev spongeWidth : Nat := 12

example : spongeWidth = spongeRate + spongeCapacity := by
  decide

def nBars : Nat := 4

abbrev nRounds : Nat := 6

scoped instance spongeWidth_neZero : NeZero spongeWidth :=
  ⟨Nat.succ_ne_zero 11⟩

scoped instance (priority := high) nRounds_neZero : NeZero (nRounds + 1) :=
  ⟨Nat.succ_ne_zero 6⟩

abbrev lookupBits : Nat := 8

def numHashOutElts : Nat := 4

def mat12 : Fin spongeWidth → Fin spongeWidth → Nat :=
  ![
    ![7, 23, 8, 26, 13, 10, 9, 7, 6, 22, 21, 8],
    ![8, 7, 23, 8, 26, 13, 10, 9, 7, 6, 22, 21],
    ![21, 8, 7, 23, 8, 26, 13, 10, 9, 7, 6, 22],
    ![22, 21, 8, 7, 23, 8, 26, 13, 10, 9, 7, 6],
    ![6, 22, 21, 8, 7, 23, 8, 26, 13, 10, 9, 7],
    ![7, 6, 22, 21, 8, 7, 23, 8, 26, 13, 10, 9],
    ![9, 7, 6, 22, 21, 8, 7, 23, 8, 26, 13, 10],
    ![10, 9, 7, 6, 22, 21, 8, 7, 23, 8, 26, 13],
    ![13, 10, 9, 7, 6, 22, 21, 8, 7, 23, 8, 26],
    ![26, 13, 10, 9, 7, 6, 22, 21, 8, 7, 23, 8],
    ![8, 26, 13, 10, 9, 7, 6, 22, 21, 8, 7, 23],
    ![23, 8, 26, 13, 10, 9, 7, 6, 22, 21, 8, 7]
  ]

/-- The table for lookups of eight bits. -/
def roundConstants : Fin (nRounds + 1) → Fin spongeWidth → Nat :=
  ![
    ![0, 0, 0, 0, 0, 0, 0, 0, 0, 0, 0, 0],
    ![
      13596126580325903823, 5676126986831820406, 11349149288412960427,
      3368797843020733411, 16240671731749717664, 9273190757374900239,
      14446552112110239438, 4033077683985131644, 4291229347329361293,
      13231607645683636062, 1383651072186713277, 8898815177417587567
    ],
    ![
      2383619671172821638, 6065528368924797662, 16737578966352303081,
      2661700069680749654, 7414030722730336790, 18124970299993404776,
      9169923000283400738, 15832813151034110977, 16245117847613094506,
      11056181639108379773, 10546400734398052938, 8443860941261719174
    ],
    ![
      15799082741422909885, 13421235861052008152, 15448208253823605561,
      2540286744040770964, 2895626806801935918, 8644593510196221619,
      17722491003064835823, 5166255496419771636, 1015740739405252346,
      4400043467547597488, 5176473243271652644, 4517904634837939508
    ],
    ![
      18341030605319882173, 13366339881666916534, 6291492342503367536,
      10004214885638819819, 4748655089269860551, 1520762444865670308,
      8393589389936386108, 11025183333304586284, 5993305003203422738,
      458912836931247573, 5947003897778655410, 17184667486285295106
    ],
    ![
      15710528677110011358, 8929476121507374707, 2351989866172789037,
      11264145846854799752, 14924075362538455764, 10107004551857451916,
      18325221206052792232, 16751515052585522105, 15305034267720085905,
      15639149412312342017, 14624541102106656564, 3542311898554959098
    ],
    ![0, 0, 0, 0, 0, 0, 0, 0, 0, 0, 0, 0]
  ]

end Circom
