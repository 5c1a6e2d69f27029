import FrankaRos.Theory.Run
import FrankaRos.Theory.Walk
import FrankaRos.Theory.Double
import FrankaRos.Theory.Writes
import FrankaRos.Theory.Layout
import FrankaRos.Theory.RingBuffer
import FrankaRos.Theory.RowStore
import FrankaRos.Theory.SessionSwitch
import FrankaRos.Theory.Descent
import FrankaRos.Theory.SpeedProfile
import FrankaRos.Theory.Turn
import FrankaRos.Theory.TaskSpace
import FrankaRos.Theory.SignedDistance
import FrankaRos.Theory.Fields
import FrankaRos.Theory.Decimal
import FrankaRos.Theory.Sized
import FrankaRos.Theory.RoseTree
import FrankaRos.Theory.SortedPrefix
import FrankaRos.Theory.Buffer
import FrankaRos.Theory.KeyedValues
import FrankaRos.Theory.Contraction
import FrankaRos.Theory.Increments
import FrankaRos.Theory.RigidMotion
import FrankaRos.Theory.SerialChain
import FrankaRos.Theory.Claims
import FrankaRos.Theory.Throttle
import FrankaRos.Hardware.Robot
import FrankaRos.Hardware.FrankaHardwareInterface
import FrankaRos.Hardware.ModeSwitch
import FrankaRos.Hardware.CommandSafety
import FrankaRos.Hardware.RobotDispatch
import FrankaRos.Hardware.ElbowHandover
import FrankaRos.Hardware.IdleInterfaces
import FrankaRos.Hardware.RejectedPreparation
import FrankaRos.Hardware.RejectedSwitch
import FrankaRos.Hardware.OnInit
import FrankaRos.Hardware.VersionGate
import FrankaRos.Hardware.ExportedInterfaces
import FrankaRos.Controller.State
import FrankaRos.Controller.Gate
import FrankaRos.Controller.Update
import FrankaRos.Controller.Lifecycle
import FrankaRos.Controller.Course
import FrankaRos.Controller.PhaseOrder
import FrankaRos.Controller.CommandLatch
import FrankaRos.Controller.RlTermination
import FrankaRos.Controller.PhaseBounds
import FrankaRos.Controller.TimerServices
import FrankaRos.Controller.GraspCorrelation
import FrankaRos.Controller.HoldOnActivation
import FrankaRos.Controller.JointLimits
import FrankaRos.Controller.RateBound
import FrankaRos.Controller.BlendRamp
import FrankaRos.Controller.InterfaceMapping
import FrankaRos.Controller.GripperRequests
import FrankaRos.Controller.WrenchBias
import FrankaRos.Controller.LogBuffer
import FrankaRos.Controller.LogSave
import FrankaRos.EffortController.EffortControllerBase
import FrankaRos.EffortController.Reactivation
import FrankaRos.EffortController.TorqueContinuity
import FrankaRos.EffortController.Deactivation
import FrankaRos.EffortController.FailedActivation
import FrankaRos.EffortController.VelocityFilter
import FrankaRos.EffortController.JacDotSolver
import FrankaRos.Kinematics.PinocchioModel
import FrankaRos.Kinematics.PinocchioKinematics
import FrankaRos.Kinematics.CartesianImpedanceOscRT
import FrankaRos.Kinematics.TwoPaths
import FrankaRos.Kinematics.InverseKinematics
import FrankaRos.Kinematics.IkVerdict
import FrankaRos.Kinematics.IkLimits
import FrankaRos.Kinematics.SafeIndices
import FrankaRos.Kinematics.ArmEmbedding
import FrankaRos.JointMotion.MotionGenerator
import FrankaRos.JointMotion.SyncProfile
import FrankaRos.RlAction.RlActionProcessor
import FrankaRos.RlAction.ActionBounds
import FrankaRos.MoveToStart.MoveToStartWithGripper
import FrankaRos.MoveToStart.StartPose
import FrankaRos.Controller.CylinderClearance
import FrankaRos.Impedance.OscTorque
import FrankaRos.Impedance.CartesianImpedance
import FrankaRos.Impedance.NullSpace
import FrankaRos.Impedance.NullSpaceConfiguration
import FrankaRos.Impedance.AngleWrapping
import FrankaRos.Impedance.RotationError
import FrankaRos.Controller.EeVelocity
import FrankaRos.FrankaGripper.GripperActionServer
import FrankaRos.FrankaGripper.GoalEnds
import FrankaRos.FrankaGripper.CommandWidth
import FrankaRos.StateBroadcaster.FrankaRobotStateBroadcaster
import FrankaRos.StateBroadcaster.LostWakeup
import FrankaRos.SemanticComponents.FrankaRobotState
import FrankaRos.SemanticComponents.LinkOrder
import FrankaRos.SemanticComponents.JointArrays
import FrankaRos.SemanticComponents.FrankaCartesianPoseInterface
import FrankaRos.SemanticComponents.PoseCommands
import FrankaRos.RobotUtils.JointControlInterfaces
import FrankaRos.RobotUtils.Discovery
import FrankaRos.Gazebo.IgnSystem
import FrankaRos.Gazebo.ControlMethods
import FrankaRos.Gazebo.JointCommands
import FrankaRos.Gazebo.PluginTiming
import FrankaRos.Gazebo.PositionServo
import FrankaRos.Gazebo.MimicJoints
import FrankaRos.TaskPipeline.TaskPipelineNode
