/-!
# Config — the constants of `config/settings.hpp`
-/

namespace LatencyAnalyzer
namespace Config

def defaultIterations : Int := 1000
def defaultWarmup : Int := 150
def defaultRounds : Int := 5

def defaultShmIterations : Int := 2000
def defaultShmWarmup : Int := 200
def shmSpinIterations : Nat := 2000000
def shmTimeoutMs : Nat := 1000

def cacheLineSize : Nat := 64
def minBufferSize : Nat := 32 * 1024 * 1024
def largePageSize : Nat := 2 * 1024 * 1024
def defaultBandwidthSize : Nat := 64 * 1024 * 1024

def tscCalibrationMs : Int := 50
def tscCalibrationRounds : Int := 3

def bandwidthRepeats : Int := 5

end Config
end LatencyAnalyzer
